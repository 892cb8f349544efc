import Mathlib.Data.List.Nodup
import Registrar.Preferences.Document
import Registrar.Proofs.Json.Layout

/-!
Preferences are read back from the document that they are written as: every registry with its path,
its label and its moment, in the same order, and the order of the helpers.
-/

namespace Registrar

open Json

/-- A step that succeeds for each item succeeds for the list. -/
theorem mapM_eq_ok_map {α β ε : Type} {f : α → Except ε β} {g : α → β} {l : List α}
    (each : ∀ a ∈ l, f a = .ok (g a)) : l.mapM f = .ok (l.map g) := by
  induction l with
  | nil => rfl
  | cons a rest ih =>
    rw [List.mapM_cons, each a (by simp), ih fun b member => each b (by simp [member])]
    rfl

/-! ### Records -/

namespace Json.Value

variable {members : List (String × Value)}

theorem needString_ofString (s : String) : (ofString s).needString = .ok s := by
  simp [needString, ofString, unescape?_escaped]

theorem nat?_ofNat (n : Nat) : (ofNat n).nat? = some n := by
  have digits : (Nat.toDigits 10 n).all Char.isDigit = true :=
    List.all_eq_true.mpr fun _ member => Nat.isDigit_of_mem_toDigits (by decide) (by decide) member
  have value : valueOf (Nat.toDigits 10 n) = n := Nat.ofDigitChars_toDigits (by decide) (by decide)
  simp [nat?, ofNat, digits, value]

theorem filter_name (distinct : (members.map (·.1)).Nodup) {m : String × Value}
    (member : m ∈ members) : members.filter (fun other => other.1 == m.1) = [m] := by
  induction members with
  | nil => cases member
  | cons first rest ih =>
    obtain ⟨new, distinct⟩ := List.nodup_cons.mp distinct
    rcases List.mem_cons.mp member with rfl | member
    · have others : rest.filter (fun other => other.1 == m.1) = [] := by
        refine List.filter_eq_nil_iff.mpr fun other inside same => new ?_
        exact List.mem_map.mpr ⟨other, inside, beq_iff_eq.mp same⟩
      simp [others]
    · have away : first.1 ≠ m.1 := fun same => new (List.mem_map.mpr ⟨m, member, same.symm⟩)
      rw [List.filter_cons_of_neg (by simpa using away), ih distinct member]

/-- The members of a record are found under their names. -/
theorem fields_ofMembers (distinct : (members.map (·.1)).Nodup) :
    (ofMembers members).fields (members.map (·.1)) = .ok (members.map fun m => some m.2) := by
  have named : ∀ m ∈ members,
      member? (members.map (Prod.map escaped id)) m.1 = .ok (some m.2) := by
    intro m member
    have same : (fun other : String × Value => unescape? (escaped other.1) == some m.1.toList) =
        fun other => other.1 == m.1 := by
      funext other
      rw [unescape?_escaped, Bool.eq_iff_iff]
      simp [String.toList_inj]
    have one : membersNamed (members.map (Prod.map escaped id)) m.1 = [m.2] := by
      rw [membersNamed, List.filter_map]
      simp only [Function.comp_def, Prod.map_fst, same, filter_name distinct member]
      rfl
    rw [member?, one]
  have readable : (members.map (Prod.map escaped id)).all
      (fun entry => (unescape? entry.1).isSome) = true := by
    simp [unescape?_escaped]
  have steps : (ofMembers members).fields (members.map (·.1)) =
      (members.map (·.1)).mapM (member? (members.map (Prod.map escaped id))) := if_pos readable
  rw [steps, List.mapM_map]
  exact mapM_eq_ok_map named

/-- An object is read back when its values are. -/
theorem returns_ofMembers {depth : Nat} (each : ∀ m ∈ members, m.2.Returns depth) :
    (ofMembers members).Returns (depth + 1) := by
  refine returns_object fun m member => ?_
  obtain ⟨origin, inside, rfl⟩ := List.mem_map.mp member
  exact ⟨⟨origin.1, rfl⟩, each origin inside⟩

end Json.Value

/-! ### Registries and preferences -/

theorem HelperOrder.ofValue_key (order : HelperOrder) : ofValue (.ofString order.key) = .ok order := by
  cases order <;> rfl

theorem Remembered.ofValue_value (r : Remembered) : ofValue r.value = .ok r := by
  have fields : r.value.fields ["path", "label", "last_used"] =
      .ok [some (.ofString r.path.text), some (.ofString r.label),
        some (.ofNat r.lastUsed.toNat)] :=
    Value.fields_ofMembers (by simp)
  have small : r.lastUsed.toNat < UInt64.size := r.lastUsed.toNat_lt
  rw [ofValue, fields]
  simp only [bind, Except.bind, Value.nat?_ofNat, Value.needString_ofString, small, if_true,
    UInt64.ofNat_toNat]
  rfl

namespace Preferences

/-- All is understood as it is written. -/
theorem ofValue_value (p : Preferences) : ofValue p.value = .ok p := by
  have fields : p.value.fields ["registries", "sort_order"] =
      .ok [some (.array (p.registries.map Remembered.value)), some (.ofString p.order.key)] :=
    Value.fields_ofMembers (by simp)
  have registries : (p.registries.map Remembered.value).mapM Remembered.ofValue =
      .ok p.registries := by
    rw [List.mapM_map]
    exact (mapM_eq_ok_map fun r _ => Remembered.ofValue_value r).trans (by rw [List.map_id'])
  rw [ofValue, fields]
  simp only [bind, Except.bind, registries, HelperOrder.ofValue_key]
  rfl

/-- A registry lies in the list of registries, which lies in the document. -/
theorem returns_value (p : Preferences) : p.value.Returns 4 := by
  have registry : ∀ r : Remembered, r.value.Returns 2 := by
    intro r
    refine Value.returns_ofMembers fun m member => ?_
    simp only [List.mem_cons, List.not_mem_nil, or_false] at member
    rcases member with rfl | rfl | rfl
    · exact returns_ofString _
    · exact returns_ofString _
    · exact returns_ofNat _
  refine Value.returns_ofMembers fun m member => ?_
  simp only [List.mem_cons, List.not_mem_nil, or_false] at member
  rcases member with rfl | rfl
  · refine returns_array fun v member => ?_
    obtain ⟨r, -, rfl⟩ := List.mem_map.mp member
    exact registry r
  · exact (returns_ofString p.order.key).mono (by decide)

/-- What is written is read back. -/
theorem read_text (p : Preferences) : read p.text = .ok p := by
  have long : 4 ≤ p.value.text.length := by
    rw [value, Value.ofMembers, Value.text, Value.layout, ← List.append_nil (block ..),
      block_append (by simp [layoutMembers])]
    simp only [closed, List.length_cons, List.length_append]
    omega
  rw [read, text, Json.read_text p.returns_value (by omega)]
  exact p.ofValue_value

end Preferences
end Registrar
