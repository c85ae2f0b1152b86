import Mathlib
import Headroom.Table

/-! Laws of tables. A table is seen through the rows it holds: each operation says which rows are
held after it, and a table is determined by its rows. -/

namespace Headroom.Table

variable {α : Type} {key : α → String}

theorem nodup_keys (t : Table key) : (t.rows.map key).Nodup := by
  refine List.pairwise_map.mpr (t.ascending.imp ?_)
  intro a b hlt he
  exact String.lt_irrefl _ (he ▸ hlt)

theorem nodup_rows (t : Table key) : t.rows.Nodup := t.nodup_keys.of_map

theorem eq_of_key_eq (t : Table key) {a b : α} (ha : a ∈ t.rows) (hb : b ∈ t.rows)
    (h : key a = key b) : a = b :=
  List.inj_on_of_nodup_map t.nodup_keys ha hb h

/-- Tables that hold the same rows are equal. -/
theorem ext_mem {s t : Table key} (h : ∀ a, a ∈ s.rows ↔ a ∈ t.rows) : s = t := by
  have hperm : s.rows.Perm t.rows :=
    (List.perm_ext_iff_of_nodup s.nodup_rows t.nodup_rows).mpr h
  refine ext_rows (hperm.eq_of_pairwise (fun a b _ _ hab hba => ?_) s.ascending t.ascending)
  exact absurd (String.lt_trans hab hba) (String.lt_irrefl _)

/-! ### Looking up -/

theorem find?_eq_some_iff {t : Table key} {k : String} {a : α} :
    t.find? k = some a ↔ a ∈ t.rows ∧ key a = k := by
  constructor
  · intro h
    exact ⟨List.mem_of_find?_eq_some h, by simpa using List.find?_some h⟩
  · rintro ⟨ha, hk⟩
    cases hf : t.find? k with
    | none =>
      have := List.find?_eq_none.mp hf a ha
      simp [hk] at this
    | some b =>
      have hb : key b = k := by simpa using List.find?_some hf
      rw [t.eq_of_key_eq ha (List.mem_of_find?_eq_some hf) (hk.trans hb.symm)]

theorem contains_iff {t : Table key} {k : String} :
    t.contains k = true ↔ ∃ a ∈ t.rows, key a = k := by
  simp only [contains, Option.isSome_iff_exists, find?_eq_some_iff]

theorem contains_of_mem {t : Table key} {a : α} (h : a ∈ t.rows) : t.contains (key a) = true :=
  contains_iff.mpr ⟨a, h, rfl⟩

theorem contains_iff_mem_keys {t : Table key} {k : String} :
    t.contains k = true ↔ k ∈ t.rows.map key := by
  simp [contains_iff]

theorem not_contains_iff {t : Table key} {k : String} :
    t.contains k = false ↔ ∀ a ∈ t.rows, key a ≠ k := by
  rw [← Bool.not_eq_true, contains_iff]
  simp

/-! ### Inserting -/

theorem insertRow_perm (a : α) {l : List α} (h : l.Pairwise (key · < key ·)) :
    (insertRow key a l).Perm (a :: l.filter (key · ≠ key a)) := by
  induction l with
  | nil => simp [insertRow]
  | cons b rest ih =>
    obtain ⟨hb, hrest⟩ := List.pairwise_cons.mp h
    rw [insertRow]
    split
    · rename_i hab
      have hkeep : (b :: rest).filter (key · ≠ key a) = b :: rest := by
        refine List.filter_eq_self.mpr fun x hx => ?_
        have hax : key a < key x := by
          rcases List.mem_cons.mp hx with rfl | hx
          · exact hab
          · exact String.lt_trans hab (hb x hx)
        simpa using fun he : key x = key a => String.lt_irrefl _ (he ▸ hax)
      rw [hkeep]
    · split
      · rename_i hab
        have hkeep : rest.filter (key · ≠ key a) = rest := by
          refine List.filter_eq_self.mpr fun x hx => ?_
          simpa using fun he : key x = key a => String.lt_irrefl (key a) (by
            simpa [hab, he] using hb x hx)
        rw [List.filter_cons_of_neg (by simpa using hab.symm), hkeep]
      · rename_i hab
        rw [List.filter_cons_of_pos (by simpa using fun he : key b = key a => hab he.symm)]
        exact ((ih hrest).cons b).trans (List.Perm.swap a b _)

/-- A row that is put in takes the place of the row of its key. -/
theorem insert_perm (t : Table key) (a : α) :
    (t.insert a).rows.Perm (a :: t.rows.filter (key · ≠ key a)) :=
  insertRow_perm a t.ascending

@[simp] theorem mem_insert {t : Table key} {a x : α} :
    x ∈ (t.insert a).rows ↔ x = a ∨ x ∈ t.rows ∧ key x ≠ key a := by
  rw [(t.insert_perm a).mem_iff]
  simp

@[simp] theorem find?_insert (t : Table key) (a : α) : (t.insert a).find? (key a) = some a :=
  find?_eq_some_iff.mpr ⟨mem_insert.mpr (.inl rfl), rfl⟩

/-- A row of a new key stands beside all others. -/
theorem insert_perm_of_fresh {t : Table key} {a : α} (h : t.contains (key a) = false) :
    (t.insert a).rows.Perm (a :: t.rows) := by
  have hkeep : t.rows.filter (key · ≠ key a) = t.rows :=
    List.filter_eq_self.mpr fun x hx => by simpa using not_contains_iff.mp h x hx
  exact hkeep ▸ t.insert_perm a

/-- Of rows that are put in one after the other the last of a key stays, and of the rows that were
there those whose key none of them has. -/
theorem mem_foldl_insert {rows : List α} {t : Table key} {x : α} :
    x ∈ (rows.foldl insert t).rows ↔
      (x ∈ t.rows ∧ ∀ row ∈ rows, key row ≠ key x) ∨
        ∃ earlier later, rows = earlier ++ x :: later ∧ ∀ row ∈ later, key row ≠ key x := by
  induction rows generalizing t with
  | nil => simp
  | cons a rest ih =>
    rw [List.foldl_cons, ih, mem_insert, List.forall_mem_cons]
    constructor
    · rintro (⟨rfl | ⟨hx, hne⟩, hrest⟩ | ⟨earlier, later, rfl, hlater⟩)
      · exact .inr ⟨[], rest, rfl, hrest⟩
      · exact .inl ⟨hx, hne.symm, hrest⟩
      · exact .inr ⟨a :: earlier, later, rfl, hlater⟩
    · rintro (⟨hx, hne, hrest⟩ | ⟨earlier, later, hrows, hlater⟩)
      · exact .inl ⟨.inr ⟨hx, hne.symm⟩, hrest⟩
      · rcases List.cons_eq_append_iff.mp hrows with ⟨rfl, hcons⟩ | ⟨earlier, rfl, rfl⟩
        · obtain ⟨rfl, rfl⟩ := List.cons.inj hcons
          exact .inl ⟨.inl rfl, hlater⟩
        · exact .inr ⟨earlier, later, rfl, hlater⟩

theorem mem_ofList {rows : List α} {x : α} : x ∈ (ofList rows : Table key).rows ↔
    ∃ earlier later, rows = earlier ++ x :: later ∧ ∀ row ∈ later, key row ≠ key x := by
  rw [ofList, mem_foldl_insert]
  simp [empty]

/-- Rows of distinct keys all stay. -/
theorem ofList_perm {rows : List α} (h : (rows.map key).Nodup) :
    (ofList rows : Table key).rows.Perm rows := by
  refine (List.perm_ext_iff_of_nodup (nodup_rows _) h.of_map).mpr fun x => ?_
  rw [mem_ofList]
  constructor
  · rintro ⟨earlier, later, rfl, -⟩
    exact List.mem_append_right _ List.mem_cons_self
  · intro hx
    obtain ⟨earlier, later, rfl⟩ := List.append_of_mem hx
    refine ⟨earlier, later, rfl, fun row hrow heq => ?_⟩
    rw [List.map_append, List.map_cons] at h
    have hfresh := (List.nodup_cons.mp h.of_append_right).1
    exact hfresh (heq ▸ List.mem_map_of_mem hrow)

/-! ### Keeping some rows -/

@[simp] theorem mem_filter {t : Table key} {p : α → Bool} {x : α} :
    x ∈ (t.filter p).rows ↔ x ∈ t.rows ∧ p x = true := by
  simp [filter]

@[simp] theorem mem_erase {t : Table key} {k : String} {x : α} :
    x ∈ (t.erase k).rows ↔ x ∈ t.rows ∧ key x ≠ k := by
  simp [erase]

theorem mem_foldl_erase {ks : List String} {t : Table key} {x : α} :
    x ∈ (ks.foldl erase t).rows ↔ x ∈ t.rows ∧ key x ∉ ks := by
  induction ks generalizing t with
  | nil => simp
  | cons k rest ih =>
    rw [List.foldl_cons, ih, mem_erase, List.mem_cons, not_or, and_assoc]

theorem filter_filter (t : Table key) (p q : α → Bool) :
    (t.filter p).filter q = t.filter fun a => p a && q a :=
  ext_rows (by simp [filter, Bool.and_comm])

/-! ### Looking up after a change -/

theorem find?_insert_eq_update (t : Table key) (a : α) :
    (t.insert a).find? = Function.update t.find? (key a) (some a) := by
  funext k
  refine Option.ext fun x => ?_
  rw [find?_eq_some_iff, mem_insert]
  by_cases hk : k = key a
  · subst hk
    rw [Function.update_self, Option.some.injEq]
    constructor
    · rintro ⟨rfl | ⟨-, hne⟩, heq⟩
      · rfl
      · exact absurd heq hne
    · rintro rfl
      exact ⟨.inl rfl, rfl⟩
  · rw [Function.update_of_ne hk, find?_eq_some_iff]
    constructor
    · rintro ⟨rfl | ⟨hx, -⟩, rfl⟩
      · exact absurd rfl hk
      · exact ⟨hx, rfl⟩
    · rintro ⟨hx, rfl⟩
      exact ⟨.inr ⟨hx, hk⟩, rfl⟩

theorem find?_filter (t : Table key) (p : α → Bool) (k : String) :
    (t.filter p).find? k = (t.find? k).filter p := by
  refine Option.ext fun x => ?_
  rw [find?_eq_some_iff, mem_filter, Option.filter_eq_some_iff, find?_eq_some_iff]
  exact and_right_comm

theorem find?_erase_eq_update (t : Table key) (k : String) :
    (t.erase k).find? = Function.update t.find? k none := by
  funext k'
  refine Option.ext fun x => ?_
  rw [find?_eq_some_iff, mem_erase]
  by_cases hk : k' = k
  · subst hk
    rw [Function.update_self]
    simp
  · rw [Function.update_of_ne hk, find?_eq_some_iff]
    constructor
    · rintro ⟨⟨hx, -⟩, hkey⟩
      exact ⟨hx, hkey⟩
    · rintro ⟨hx, rfl⟩
      exact ⟨⟨hx, hk⟩, rfl⟩

/-- Of the rows of a key in a list the last is found. -/
theorem find?_ofList (rows : List α) (k : String) :
    (ofList rows : Table key).find? k = rows.reverse.find? (key · == k) := by
  refine Option.ext fun x => ?_
  rw [find?_eq_some_iff, mem_ofList, List.find?_eq_some_iff_append, beq_iff_eq, and_comm]
  refine and_congr_right fun hk => ?_
  subst hk
  constructor
  · rintro ⟨earlier, later, rfl, hlater⟩
    refine ⟨later.reverse, earlier.reverse, by simp, fun row hrow => ?_⟩
    simpa using hlater row (List.mem_reverse.mp hrow)
  · rintro ⟨later, earlier, hrows, hlater⟩
    refine ⟨earlier.reverse, later.reverse, ?_, fun row hrow => ?_⟩
    · simpa using congrArg List.reverse hrows
    · simpa using hlater row (List.mem_reverse.mp hrow)

/-! ### Changing rows in place -/

/-- The table whose rows are the images under a function that keeps the keys. -/
def mapRows (t : Table key) (f : α → α) (h : ∀ a, key (f a) = key a) : Table key where
  rows := t.rows.map f
  ascending := List.pairwise_map.mpr (by simpa only [h] using t.ascending)

section MapRows

variable {f : α → α} (hf : ∀ a, key (f a) = key a)

theorem mapRows_insert (t : Table key) (a : α) :
    (t.insert a).mapRows f hf = (t.mapRows f hf).insert (f a) := by
  have hrows : ∀ l : List α, (insertRow key a l).map f = insertRow key (f a) (l.map f) := by
    intro l
    induction l with
    | nil => rfl
    | cons b rest ih =>
      simp only [List.map_cons, insertRow, hf]
      split
      · rfl
      · split
        · rfl
        · rw [List.map_cons, ih]
  exact ext_rows (hrows t.rows)

theorem find?_mapRows (t : Table key) (k : String) :
    (t.mapRows f hf).find? k = (t.find? k).map f := by
  rw [find?, mapRows, List.find?_map]
  simp only [Function.comp_def, hf]
  rfl

theorem contains_mapRows (t : Table key) (k : String) :
    (t.mapRows f hf).contains k = t.contains k := by
  rw [contains, find?_mapRows, Option.isSome_map]
  rfl

theorem size_mapRows (t : Table key) : (t.mapRows f hf).size = t.size :=
  List.length_map f

end MapRows

/-- Putting in the image of a row changes that row in place. -/
theorem insert_eq_mapRows {t : Table key} {f : α → α} (hf : ∀ a, key (f a) = key a) {k : String}
    {a : α} (ha : t.find? k = some a) :
    t.insert (f a) = t.mapRows (fun b => if key b = k then f b else b)
      (by intro b; split <;> simp [hf]) := by
  obtain ⟨hmem, hk⟩ := find?_eq_some_iff.mp ha
  refine ext_mem fun x => ?_
  simp only [mem_insert, mapRows, List.mem_map]
  constructor
  · rintro (rfl | ⟨hx, hne⟩)
    · exact ⟨a, hmem, by simp [hk]⟩
    · exact ⟨x, hx, by rw [if_neg (by rwa [hf, hk] at hne)]⟩
  · rintro ⟨b, hb, rfl⟩
    split
    · rename_i hbk
      exact .inl (by rw [t.eq_of_key_eq hb hmem (hbk.trans hk.symm)])
    · rename_i hbk
      exact .inr ⟨hb, by rwa [hf, hk]⟩

end Headroom.Table

namespace Headroom.Dictionary

theorem get?_eq_some_iff {d : Dictionary} {k v : String} : d.get? k = some v ↔ (k, v) ∈ d.rows := by
  rw [get?, Option.map_eq_some_iff]
  constructor
  · rintro ⟨row, hrow, rfl⟩
    obtain ⟨hmem, rfl⟩ := Table.find?_eq_some_iff.mp hrow
    exact hmem
  · exact fun h => ⟨(k, v), Table.find?_eq_some_iff.mpr ⟨h, rfl⟩, rfl⟩

@[simp] theorem get?_put (d : Dictionary) (k v : String) : (d.put k v).get? k = some v :=
  get?_eq_some_iff.mpr (Table.mem_insert.mpr (.inl rfl))

theorem get?_put_of_ne (d : Dictionary) {k k' : String} (v : String) (h : k' ≠ k) :
    (d.put k v).get? k' = d.get? k' := by
  rw [get?, put, Table.find?_insert_eq_update, Function.update_of_ne h]
  rfl

@[simp] theorem get?_erase (d : Dictionary) (k : String) :
    Dictionary.get? (d.erase k) k = none := by
  rw [get?, Table.find?_erase_eq_update, Function.update_self]
  rfl

theorem get?_erase_of_ne (d : Dictionary) {k k' : String} (h : k' ≠ k) :
    Dictionary.get? (d.erase k) k' = d.get? k' := by
  rw [get?, Table.find?_erase_eq_update, Function.update_of_ne h]
  rfl

theorem contains_eq_isSome (d : Dictionary) (k : String) : d.contains k = (d.get? k).isSome := by
  rw [get?, Option.isSome_map]
  rfl

end Headroom.Dictionary
