import Headroom.Proofs.Provision
import Mathlib.Data.Nat.Nth

/-! Which nodes a growing pool gets, and growing it more than once. The new nodes have the first
free numbers from the size of the pool on. A growth that goes on where another ended starts its
search again at the size of the pool, and ends at the same nodes, since all numbers in between are
taken. -/

namespace Headroom.Scaling

open Cluster (NodeRecord Store)

/-- An ascending list of numbers with a property that leaves none out below its members lists the
first of them. -/
theorem eq_map_nth {p : Nat → Prop} [DecidablePred p] {numbers : List Nat}
    (hascending : numbers.Pairwise (· < ·)) (hall : ∀ k ∈ numbers, p k)
    (hfirst : ∀ k ∈ numbers, ∀ j, j < k → p j → j ∈ numbers) :
    numbers = (List.range numbers.length).map (Nat.nth p) := by
  have hcount : ∀ i, (hi : i < numbers.length) → Nat.count p numbers[i] = i := by
    intro i hi
    -- The numbers with the property that are below a member are the members before it.
    have hbelow : (Finset.range numbers[i]).filter p = (numbers.take i).toFinset := by
      ext j
      simp only [Finset.mem_filter, Finset.mem_range, List.mem_toFinset, List.mem_take_iff_getElem]
      constructor
      · rintro ⟨hlt, hj⟩
        obtain ⟨m, hm, rfl⟩ := List.getElem_of_mem (hfirst _ (List.getElem_mem hi) j hlt hj)
        have := hascending.sortedLT.getElem_lt_getElem_iff.mp hlt
        exact ⟨m, by omega, rfl⟩
      · rintro ⟨m, hm, rfl⟩
        exact ⟨hascending.sortedLT.getElem_lt_getElem_iff.mpr (by omega),
          hall _ (List.getElem_mem _)⟩
    rw [Nat.count_eq_card_filter_range, hbelow,
      List.toFinset_card_of_nodup (hascending.nodup.sublist (List.take_sublist _ _)),
      List.length_take]
    omega
  refine List.ext_getElem (by simp) fun i hi _ => ?_
  have hnth := Nat.nth_count (hall _ (List.getElem_mem hi))
  rw [hcount i hi] at hnth
  simpa using hnth.symm

namespace NodeShape

variable {shape : NodeShape} {store : Store}

/-! ### The numbers of the new nodes -/

/-- The number is not below `start`, and no node has its name. -/
def FreeFrom (shape : NodeShape) (store : Store) (start k : Nat) : Prop :=
  start ≤ k ∧ store.nodes.contains (shape.name k) = false

instance (shape : NodeShape) (store : Store) (start : Nat) :
    DecidablePred (shape.FreeFrom store start) :=
  fun _ => inferInstanceAs (Decidable (_ ∧ _))

/-- New nodes get the first free numbers. -/
theorem Growth.numbers_eq {numbers : List Nat} {start : Nat} {after : Store}
    (h : Growth shape start numbers store after) :
    numbers = (List.range numbers.length).map (Nat.nth (shape.FreeFrom store start)) := by
  refine eq_map_nth h.ascending (fun k hk => ⟨h.start_le k hk, h.free k hk⟩) ?_
  rintro k hk j hlt ⟨hstart, hfree⟩
  rcases h.least k hk j hstart hlt with hmem | htaken
  · exact hmem
  · simp [hfree] at htaken

/-- After the growth all numbers from `start` up to that of a new node are taken, so there are no
more of them than nodes. -/
theorem Growth.lt_add_size {numbers : List Nat} {start k : Nat} {after : Store}
    (h : Growth shape start numbers store after) (hk : k ∈ numbers) :
    k < start + after.nodes.size := by
  have hstart := h.start_le k hk
  have htaken : ∀ j, start ≤ j → j < start + (k + 1 - start) →
      after.nodes.contains (shape.name j) = true := by
    intro j hj hlt
    rw [h.contains_iff]
    rcases Nat.lt_or_eq_of_le (show j ≤ k by omega) with hlt | rfl
    · exact h.least k hk j hj hlt
    · exact .inl hk
  have hle := le_size_of_taken htaken
  omega

/-- Nodes are added one after the other, in the order of their numbers. -/
theorem addNodes_eq_foldl (shape : NodeShape) (count n : Nat) (store : Store) :
    shape.addNodes count n store =
      (shape.newNumbers count n store).foldl (fun store k => store.putNode (shape.node k))
        store := by
  induction count generalizing n store with
  | zero => rfl
  | succ count ih => exact ih _ _

theorem size_addNodes (shape : NodeShape) (count n : Nat) (store : Store) :
    (shape.addNodes count n store).nodes.size = count + store.nodes.size := by
  rw [(shape.growth_addNodes count n store).size_eq, length_newNumbers]

theorem size_increaseToSize (shape : NodeShape) (size : Nat) (store : Store) :
    (shape.increaseToSize size store).nodes.size = max size store.nodes.size := by
  rw [increaseToSize, size_addNodes]
  omega

/-- A pool that is asked for a size has it afterwards, unless it is larger already. What was there
stays as it was. The new nodes are added one after the other and get the first free numbers from the
former size on; every counter fits a word. -/
theorem grows_with_first_free (shape : NodeShape) (store : Store) (size : Nat)
    (hrange : store.nodes.size + size < 2 ^ 64) :
    ∃ numbers after, shape.backend.execute (.increaseToSize size) store = (.ok (), after) ∧
      after.nodes.size = max size store.nodes.size ∧
      after.pods = store.pods ∧
      after.nodes.rows.Perm
        (numbers.map (fun k =>
          { id := shape.stem ++ "-" ++ toString k, capacity := some shape.capacity,
            unschedulable := false, annotations := ∅, labels := ∅ }) ++ store.nodes.rows) ∧
      after = numbers.foldl (fun store k => store.putNode (shape.node k)) store ∧
      numbers = (List.range (size - store.nodes.size)).map
        (Nat.nth (shape.FreeFrom store store.nodes.size)) ∧
      numbers.Pairwise (· < ·) ∧
      (∀ k ∈ numbers, shape.FreeFrom store store.nodes.size k ∧ k + 1 < 2 ^ 64) ∧
      (size ≤ store.nodes.size → after = store) := by
  have hgrowth := shape.growth_addNodes (size - store.nodes.size) store.nodes.size store
  have hnumbers := hgrowth.numbers_eq
  rw [length_newNumbers] at hnumbers
  refine ⟨_, shape.increaseToSize size store, rfl, shape.size_increaseToSize size store,
    hgrowth.pods_eq, hgrowth.rows_perm, shape.addNodes_eq_foldl _ _ store, hnumbers,
    hgrowth.ascending, fun k hk => ⟨⟨hgrowth.start_le k hk, hgrowth.free k hk⟩, ?_⟩, fun hle => ?_⟩
  · have hlt := hgrowth.lt_add_size hk
    rw [size_addNodes] at hlt
    have hgrows := List.length_pos_of_mem hk
    rw [length_newNumbers] at hgrows
    omega
  · rw [increaseToSize, Nat.sub_eq_zero_of_le hle]
    rfl

/-- Two nodes, of which one has a name that the pool could give, and a pod. -/
def rackStore : Store := .ofState {
  nodes := [
    { id := "rack-7", capacity := none },
    { id := "rack-7-3", capacity := some 500, unschedulable := true }]
  pods := [{ space := "games", name := "match", nodeId := some "rack-7-3", request := 300 }] }

theorem grows_with_first_free_rack :
    let rack : NodeShape := { stem := "rack-7" }
    rackStore.nodes.size + 5 < 2 ^ 64 ∧
    ∃ (numbers : List Nat) (after : Store),
      rack.backend.execute (.increaseToSize 5) rackStore = (.ok (), after) ∧
      after.nodes.size = 5 ∧ after.pods = rackStore.pods ∧
      numbers.length = 3 ∧ numbers.Pairwise (· < ·) ∧
      (∀ k ∈ numbers, 2 ≤ k ∧ rackStore.nodes.contains (rack.name k) = false) ∧
      after.nodes.rows.map (·.id) = ["rack-7", "rack-7-2", "rack-7-3", "rack-7-4", "rack-7-5"] := by
  intro rack
  have hrange : rackStore.nodes.size + 5 < 2 ^ 64 := by decide
  obtain ⟨numbers, after, hrun, hsize, hpods, -, -, hnumbers, hascending, hfree, -⟩ :=
    grows_with_first_free rack rackStore 5 hrange
  have hids : (rack.increaseToSize 5 rackStore).nodes.rows.map (·.id) =
      ["rack-7", "rack-7-2", "rack-7-3", "rack-7-4", "rack-7-5"] := by decide +kernel
  obtain rfl : rack.increaseToSize 5 rackStore = after := congrArg Prod.snd hrun
  refine ⟨hrange, numbers, _, hrun, hsize, hpods, ?_, hascending, fun k hk => (hfree k hk).1, hids⟩
  rw [hnumbers, List.length_map, List.length_range]
  rfl

/-! ### Growing again -/

/-- A growth that starts among taken numbers is the growth that starts after them. -/
theorem addNodes_of_taken {m n : Nat} (count : Nat) (hle : m ≤ n)
    (h : ∀ k, m ≤ k → k < n → store.nodes.contains (shape.name k) = true) :
    shape.addNodes count m store = shape.addNodes count n store := by
  cases count with
  | zero => rfl
  | succ count => simp only [addNodes, freeNumber_eq_of_taken hle h]

/-- A growth that has added some nodes goes on from a number below which all are taken. -/
theorem exists_cursor (shape : NodeShape) (count n : Nat) (store : Store) :
    ∃ cursor, n + count ≤ cursor ∧
      (∀ k, n ≤ k → k < cursor →
        (shape.addNodes count n store).nodes.contains (shape.name k) = true) ∧
      ∀ more, shape.addNodes (count + more) n store =
        shape.addNodes more cursor (shape.addNodes count n store) := by
  induction count generalizing n store with
  | zero => exact ⟨n, le_rfl, fun k hn hk => by omega, fun more => by rw [Nat.zero_add]; rfl⟩
  | succ count ih =>
    obtain ⟨hn, -, hpassed, -⟩ := shape.freeNumber_spec store n
    obtain ⟨cursor, hle, htaken, hmore⟩ :=
      ih (shape.freeNumber store n + 1) (store.putNode (shape.node (shape.freeNumber store n)))
    refine ⟨cursor, by omega, fun k hk hlt => ?_, fun more => ?_⟩
    -- Past the first new number the rest of the growth takes them; the others it finds taken.
    · rcases Nat.lt_or_ge (shape.freeNumber store n) k with hover | hunder
      · exact htaken k hover hlt
      · refine (shape.growth_addNodes (count + 1) n store).contains_iff.mpr ?_
        rcases Nat.lt_or_eq_of_le hunder with hunder | rfl
        · exact .inr (hpassed k hk hunder)
        · exact .inl List.mem_cons_self
    · rw [Nat.add_right_comm]
      exact hmore more

/-- Adding nodes twice is adding them at once. The second growth may start as far back as the size
that the first has reached. -/
theorem addNodes_add (shape : NodeShape) (count more n : Nat) (store : Store) :
    shape.addNodes more (n + count) (shape.addNodes count n store) =
      shape.addNodes (count + more) n store := by
  obtain ⟨cursor, hle, htaken, hmore⟩ := shape.exists_cursor count n store
  rw [hmore]
  exact addNodes_of_taken more hle fun k hk hlt => htaken k (by omega) hlt

/-- A growth that has begun is brought to its end by asking for it again. -/
theorem increaseToSize_addNodes (shape : NodeShape) (size done : Nat) (store : Store) :
    shape.increaseToSize size (shape.addNodes done store.nodes.size store) =
      shape.increaseToSize (max size (store.nodes.size + done)) store := by
  unfold increaseToSize
  rw [size_addNodes, Nat.add_comm done, addNodes_add]
  congr 1
  omega

/-- Two resizes have the effect of the larger one. So a resize that is repeated changes nothing, the
order of resizes does not matter, and a growth that stopped after some of its nodes is completed by
asking for it again. -/
theorem resizes_compose (shape : NodeShape) (store : Store) (n m : Nat) :
    shape.increaseToSize m (shape.increaseToSize n store) =
      shape.increaseToSize (max n m) store ∧
    shape.increaseToSize n (shape.increaseToSize n store) = shape.increaseToSize n store ∧
    shape.increaseToSize m (shape.increaseToSize n store) =
      shape.increaseToSize n (shape.increaseToSize m store) ∧
    ∀ done, store.nodes.size + done ≤ n →
      shape.increaseToSize n (shape.addNodes done store.nodes.size store) =
        shape.increaseToSize n store := by
  have htwice : ∀ n m, shape.increaseToSize m (shape.increaseToSize n store) =
      shape.increaseToSize (max n m) store := by
    intro n m
    rw [increaseToSize.eq_def shape n store, increaseToSize_addNodes]
    unfold increaseToSize
    congr 1
    omega
  refine ⟨htwice n m, ?_, ?_, fun done hdone => ?_⟩
  · rw [htwice, max_self]
  · rw [htwice, htwice, max_comm]
  · rw [increaseToSize_addNodes, max_eq_left hdone]

/-- A growth to five nodes that stops after two, and with it a smaller and a larger size. -/
theorem resizes_compose_rack :
    let rack : NodeShape := { stem := "rack-7" }
    rackStore.nodes.size + 2 ≤ 5 ∧
    rack.increaseToSize 5 (rack.addNodes 2 rackStore.nodes.size rackStore) =
      rack.increaseToSize 5 rackStore ∧
    rack.increaseToSize 3 (rack.increaseToSize 5 rackStore) = rack.increaseToSize 5 rackStore ∧
    rack.increaseToSize 5 (rack.increaseToSize 3 rackStore) = rack.increaseToSize 5 rackStore := by
  intro rack
  have hstopped : rackStore.nodes.size + 2 ≤ 5 := by decide
  obtain ⟨hshrink, -, hswap, hresume⟩ := resizes_compose rack rackStore 5 3
  rw [show max 5 3 = 5 from rfl] at hshrink
  exact ⟨hstopped, hresume 2 hstopped, hshrink, hswap.symm.trans hshrink⟩

end NodeShape

end Headroom.Scaling
