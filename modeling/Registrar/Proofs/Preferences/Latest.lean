import Registrar.Proofs.Preferences.Committed

/-!
The last moment. A new moment is one more than the newest that is kept, and moments have 64 bits, so there
is none behind the last one: a document that holds it lets the sum wrap, and the registry that is used
afterwards is listed by the clock alone. Where no registry is at the last moment, a use comes first in the
list, whatever the clock shows.
-/

namespace Registrar

namespace Preferences

variable {p : Preferences} {now : Stamp} {path : Path} {label? : Option String}

/-- The registry that is listed first is at the path. -/
def Leads (p : Preferences) (path : Path) : Prop :=
  ∃ r rest, p.list = r :: rest ∧ r.path.same path = true

end Preferences

namespace Workplace

/-- One registry at the last moment keeps the other one, which is used, from coming first. -/
example : (Preferences.upsert ⟨[⟨⟨"/w/b.ts"⟩, "b", 5⟩, ⟨⟨"/w/a.ts"⟩, "a", 18446744073709551615⟩], .name⟩ 7
    ⟨"/w/b.ts"⟩ none).list.map (·.path.text) = ["/w/a.ts", "/w/b.ts"] := by
  decide +kernel

end Workplace
end Registrar
