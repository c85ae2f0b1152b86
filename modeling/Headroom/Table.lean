/-!
Rows in strictly ascending order of their keys. A key is text; texts compare by their code
points, which is also the order of their encoded bytes. A row knows its own key, so no row is
ever kept under another one. Two tables of one content are equal.
-/

namespace Headroom

/-- Rows of type `α`, each found under the key that `key` reads from it. -/
structure Table {α : Type} (key : α → String) where
  rows : List α
  ascending : rows.Pairwise (key · < key ·)

namespace Table

variable {α : Type} {key : α → String}

/-- Puts a row in its place; a row of the same key makes way. -/
def insertRow (key : α → String) (a : α) : List α → List α
  | [] => [a]
  | b :: rest =>
    if key a < key b then a :: b :: rest
    else if key a = key b then a :: rest
    else b :: insertRow key a rest

theorem mem_insertRow {a x : α} {l : List α} (h : x ∈ insertRow key a l) : x = a ∨ x ∈ l := by
  induction l with
  | nil => simp_all [insertRow]
  | cons b rest ih => grind [insertRow]

theorem pairwise_insertRow (a : α) {l : List α} (h : l.Pairwise (key · < key ·)) :
    (insertRow key a l).Pairwise (key · < key ·) := by
  induction l with
  | nil => simp [insertRow]
  | cons b rest ih =>
    have ⟨hb, hrest⟩ := List.pairwise_cons.mp h
    rw [insertRow]
    split
    · rename_i hab
      refine List.pairwise_cons.mpr ⟨fun x hx => ?_, h⟩
      rcases List.mem_cons.mp hx with rfl | hx
      · exact hab
      · exact String.lt_trans hab (hb x hx)
    · split
      · rename_i hab
        exact List.pairwise_cons.mpr ⟨fun x hx => hab ▸ hb x hx, hrest⟩
      · rename_i hlt hne
        refine List.pairwise_cons.mpr ⟨fun x hx => ?_, ih hrest⟩
        rcases mem_insertRow hx with rfl | hx
        · exact (Std.lt_trichotomy (key b) (key x)).resolve_right
            fun h => h.elim (fun h => hne h.symm) hlt
        · exact hb x hx

/-- The table without rows. -/
def empty : Table key := ⟨[], .nil⟩

instance : EmptyCollection (Table key) := ⟨empty⟩

instance : Inhabited (Table key) := ⟨empty⟩

/-- The table with `a` in place of a row of the same key, or beside the others. -/
def insert (t : Table key) (a : α) : Table key :=
  ⟨insertRow key a t.rows, pairwise_insertRow a t.ascending⟩

/-- The rows that satisfy a test. -/
def filter (t : Table key) (p : α → Bool) : Table key :=
  ⟨t.rows.filter p, t.ascending.filter p⟩

/-- The table without the row of key `k`. -/
def erase (t : Table key) (k : String) : Table key := t.filter (key · != k)

/-- The row of key `k`. -/
def find? (t : Table key) (k : String) : Option α := t.rows.find? (key · == k)

/-- Some row has the key `k`. -/
def contains (t : Table key) (k : String) : Bool := (t.find? k).isSome

/-- The number of rows. -/
def size (t : Table key) : Nat := t.rows.length

/-- The table of a list of rows; of rows with one key the last stays. -/
def ofList (rows : List α) : Table key := rows.foldl insert empty

theorem ext_rows {s t : Table key} (h : s.rows = t.rows) : s = t := by
  cases s; cases t; simp_all

instance [DecidableEq α] : DecidableEq (Table key) := fun s t =>
  if h : s.rows = t.rows then .isTrue (ext_rows h) else .isFalse fun e => h (e ▸ rfl)

end Table

/-- Text by text: annotations and labels. -/
abbrev Dictionary := Table (Prod.fst : String × String → String)

namespace Dictionary

/-- The text kept under `k`. -/
def get? (d : Dictionary) (k : String) : Option String := (d.find? k).map Prod.snd

/-- The dictionary with `v` under `k`. -/
def put (d : Dictionary) (k v : String) : Dictionary := d.insert (k, v)

end Dictionary

end Headroom
