import Registrar.Text.Basic

/-!
Folders as trees. The entries of a folder stand in the order of their names, and each name stands
once; an entry is a file or a folder.
-/

namespace Registrar

/-- What a file holds. -/
inductive Contents where
  | text (t : Text)
  /-- Bytes that are no text. -/
  | bytes (b : List UInt8)
  deriving DecidableEq, Repr

/-- A file with the moment at which it was last written. -/
structure File where
  contents : Contents
  modified : Nat
  deriving DecidableEq, Repr

/-- The entries of a folder. -/
inductive Folder where
  | empty
  | file (name : String) (file : File) (rest : Folder)
  | folder (name : String) (inside : Folder) (rest : Folder)
  deriving DecidableEq, Repr

/-- What a name stands for. -/
inductive Item where
  | file (f : File)
  | folder (inside : Folder)
  deriving DecidableEq, Repr

/-- The entry of an item, before other entries. -/
def Item.named (name : String) (rest : Folder) : Item → Folder
  | .file f => .file name f rest
  | .folder inside => .folder name inside rest

namespace Folder

/-- The item with a name. -/
def find? (name : String) : Folder → Option Item
  | .empty => none
  | .file n f rest => if n == name then some (.file f) else find? name rest
  | .folder n inside rest => if n == name then some (.folder inside) else find? name rest

/-- The item that names lead to, one below the other. -/
def at? : List String → Folder → Option Item
  | [], d => some (.folder d)
  | name :: names, d =>
    match d.find? name with
    | some (.folder inside) => at? names inside
    | some (.file f) => if names.isEmpty then some (.file f) else none
    | none => none

/-- The entries with the item under a name, at its place in the order or instead of an old one. -/
def put (name : String) (item : Item) : Folder → Folder
  | .empty => item.named name .empty
  | .file n f rest =>
    if n == name then item.named name rest
    else if name < n then item.named name (.file n f rest)
    else .file n f (put name item rest)
  | .folder n inside rest =>
    if n == name then item.named name rest
    else if name < n then item.named name (.folder n inside rest)
    else .folder n inside (put name item rest)

/-- The entries without that of a name. -/
def erase (name : String) : Folder → Folder
  | .empty => .empty
  | .file n f rest => if n == name then rest else .file n f (erase name rest)
  | .folder n inside rest => if n == name then rest else .folder n inside (erase name rest)

/-- The tree with a change made to the folder that names lead to. -/
def within (change : Folder → Folder) : List String → Folder → Folder
  | [], d => change d
  | name :: names, d =>
    match d.find? name with
    | some (.folder inside) => d.put name (.folder (within change names inside))
    | _ => d

/-- The tree with an item where names lead to. -/
def putAt (names : List String) (item : Item) (d : Folder) : Folder :=
  match names.getLast? with
  | none => d
  | some name => d.within (put name item) names.dropLast

/-- The tree without the item that names lead to. -/
def eraseAt (names : List String) (d : Folder) : Folder :=
  match names.getLast? with
  | none => d
  | some name => d.within (erase name) names.dropLast

/-- Every name stands before those that follow it. -/
def Ordered : Folder → Prop
  | .empty => True
  | .file n _ rest => (∀ m, (rest.find? m).isSome → n < m) ∧ rest.Ordered
  | .folder n inside rest =>
    (∀ m, (rest.find? m).isSome → n < m) ∧ inside.Ordered ∧ rest.Ordered

theorem find?_put_self (name : String) (item : Item) (d : Folder) :
    (d.put name item).find? name = some item := by
  induction d with
  | empty => cases item <;> simp [put, Item.named, find?]
  | file n f rest ih =>
    rw [put]
    split
    · cases item <;> simp [Item.named, find?]
    · split
      · cases item <;> simp [Item.named, find?]
      · rename_i h _
        rw [find?, if_neg h, ih]
  | folder n inside rest _ ih =>
    rw [put]
    split
    · cases item <;> simp [Item.named, find?]
    · split
      · cases item <;> simp [Item.named, find?]
      · rename_i h _
        rw [find?, if_neg h, ih]

theorem find?_put_of_ne {name other : String} (h : other ≠ name) (item : Item) (d : Folder) :
    (d.put name item).find? other = d.find? other := by
  have hn : ¬(name == other) = true := by simpa using fun e => h e.symm
  have hnamed : ∀ rest, (item.named name rest).find? other = rest.find? other := by
    intro rest
    cases item <;> simp only [Item.named, find?, if_neg hn]
  induction d with
  | empty => exact hnamed .empty
  | file n f rest ih =>
    rw [put]
    split
    · rename_i e
      rw [hnamed, find?, if_neg (by simpa [eq_of_beq e] using fun e => h e.symm)]
    · split
      · exact hnamed _
      · rw [find?, find?, ih]
  | folder n inside rest _ ih =>
    rw [put]
    split
    · rename_i e
      rw [hnamed, find?, if_neg (by simpa [eq_of_beq e] using fun e => h e.symm)]
    · split
      · exact hnamed _
      · rw [find?, find?, ih]

end Folder
end Registrar
