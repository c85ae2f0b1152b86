import Headroom.Proofs.Reaping
import Headroom.Proofs.Stamp

/-! The end of a wait. A wait that begins in a leap second may end inside it; any other ends at the
moment that it reaches, at most the last one. A longer wait is therefore over no earlier, and a node
that may be deleted may still be deleted later, or under a shorter grace period. -/

namespace Headroom

namespace Instant

variable {t : Instant} {span : Nat}

protected theorem le_trans {s t u : Instant} (hst : s ≤ t) (htu : t ≤ u) : s ≤ u :=
  Int.le_trans hst htu

/-- The seconds since the start of 1970, leap seconds aside. -/
def count (t : Instant) : Int := t.day * 86400 + t.second

theorem rank_eq (t : Instant) : t.rank = t.count * 2000000000 + t.nano := rfl

theorem count_le (t : Instant) : t.count ≤ lastDay * 86400 + 86399 := by
  have hday := t.le_lastDay
  have hsecond := t.second_lt
  unfold count
  omega

theorem rank_latest : latest.rank = (lastDay * 86400 + 86399) * 2000000000 + 999999999 := rfl

/-- A move of `span` nanoseconds stays inside the leap second in which it begins. -/
def StaysInLeap (t : Instant) (span : Nat) : Prop :=
  1000000000 ≤ t.nano ∧ t.nano + span < 2000000000

instance (t : Instant) (span : Nat) : Decidable (t.StaysInLeap span) :=
  inferInstanceAs (Decidable (_ ∧ _))

/-- The rank of the moment that any other move reaches, in a calendar without end. -/
def rankAfter (t : Instant) (span : Nat) : Int :=
  (t.count + ((t.nano % 1000000000 + span) / 1000000000 : Nat)) * 2000000000 +
    ((t.nano % 1000000000 + span) % 1000000000 : Nat)

theorem tdiv_span (span : Nat) : (span : Int).tdiv 1000000000 = span / 1000000000 ∧
    (span : Int).tmod 1000000000 = span % 1000000000 :=
  ⟨Int.tdiv_eq_ediv_of_nonneg (by omega), Int.tmod_eq_emod_of_nonneg (by omega)⟩

theorem exists_add?_of_stays (h : t.StaysInLeap span) :
    ∃ u, t.add? span = some u ∧ u.rank = t.rank + span := by
  obtain ⟨hinside, hstays⟩ := h
  obtain ⟨hseconds, hnanos⟩ := tdiv_span span
  have hleap := t.leap hinside
  have hparts : ofParts? t.day t.second (t.nano + span) = some
      ⟨t.day, t.second, t.nano + span, t.firstDay_le, t.le_lastDay, t.second_lt, hstays,
        fun _ => hleap⟩ :=
    dif_pos ⟨t.firstDay_le, t.le_lastDay, t.second_lt, hstays, fun _ => hleap⟩
  refine ⟨_, Eq.trans ?_ hparts, ?_⟩
  · rw [add?, hseconds, hnanos, if_pos ⟨hinside, by omega, by omega⟩]
    congr 1
    omega
  · simp only [rank]
    omega

/-- A move that does not stay inside a leap second goes on from the second that it is counted in. -/
theorem add?_of_leaves (h : ¬ t.StaysInLeap span) :
    t.add? span = ofParts?
      ((t.count + ((t.nano % 1000000000 + span) / 1000000000 : Nat)) / 86400)
      ((t.count + ((t.nano % 1000000000 + span) / 1000000000 : Nat)) % 86400).toNat
      ((t.nano % 1000000000 + span) % 1000000000) := by
  unfold StaysInLeap at h
  obtain ⟨hseconds, hnanos⟩ := tdiv_span span
  have hnano := t.nano_lt
  have hmove : t.moveFrom (span / 1000000000) (span % 1000000000) =
      ((t.second : Int), ((t.nano % 1000000000 : Nat) : Int)) := by
    unfold moveFrom
    split
    · exact Prod.ext rfl (by dsimp only; omega)
    · rw [if_pos (by omega)]
      exact Prod.ext rfl (by dsimp only; omega)
  rw [add?, hseconds, hnanos, if_neg (by omega)]
  simp only [hmove]
  unfold count
  congr 1 <;> omega

/-- A count of seconds is a moment unless it lies past the calendar. -/
theorem ofParts?_count {n : Int} {nano : Nat} (hnano : nano < 1000000000)
    (hn : firstDay * 86400 ≤ n) :
    (n / 86400 ≤ lastDay ∧ ∃ u, ofParts? (n / 86400) (n % 86400).toNat nano = some u ∧
      u.rank = n * 2000000000 + nano) ∨
    lastDay < n / 86400 ∧ ofParts? (n / 86400) (n % 86400).toNat nano = none := by
  unfold firstDay at hn
  by_cases hday : n / 86400 ≤ lastDay
  · refine .inl ⟨hday, _,
      dif_pos ⟨by unfold firstDay; omega, hday, by omega, by omega, by omega⟩, ?_⟩
    show (n / 86400 * 86400 + ((n % 86400).toNat : Int)) * 2000000000 + nano = _
    omega
  · exact .inr ⟨by omega, dif_neg fun h => hday h.2.1⟩

end Instant

namespace Scaling

open Cluster (Node Snapshot)
open Instant (StaysInLeap rankAfter)

/-! ### Waiting -/

theorem rank_endOfWait (grace : Duration) (t : Instant) : (endOfWait grace t).rank =
    if t.StaysInLeap grace.nanoseconds then t.rank + grace.nanoseconds
    else min (t.rankAfter grace.nanoseconds) Instant.latest.rank := by
  unfold endOfWait
  split
  · rename_i hstays
    obtain ⟨u, hu, hrank⟩ := Instant.exists_add?_of_stays hstays
    rw [hu, Option.getD_some, hrank]
  · rename_i hleaves
    have hlow : firstDay * 86400 ≤
        t.count + ((t.nano % 1000000000 + grace.nanoseconds) / 1000000000 : Nat) := by
      have hday := t.firstDay_le
      unfold Instant.count
      omega
    have hnano : (t.nano % 1000000000 + grace.nanoseconds) % 1000000000 < 1000000000 :=
      Nat.mod_lt _ (by decide)
    rw [Instant.add?_of_leaves hleaves, Instant.rank_latest, rankAfter]
    rcases Instant.ofParts?_count hnano hlow with ⟨hday, u, hu, hrank⟩ | ⟨hpast, hnone⟩
    · rw [hu, Option.getD_some, hrank]
      exact (min_eq_left (by omega)).symm
    · rw [hnone, Option.getD_none, Instant.rank_latest]
      exact (min_eq_right (by omega)).symm

/-- Of two whole seconds, the wait from the later one is over no earlier. -/
theorem endOfWait_mono (grace : Duration) {s t : Instant} (hs : s.nano % 1000000000 = 0)
    (ht : t.nano % 1000000000 = 0) (h : s ≤ t) : endOfWait grace s ≤ endOfWait grace t := by
  have hrank : s.rank ≤ t.rank := h
  have hsnano := s.nano_lt
  have htnano := t.nano_lt
  have hlast := t.count_le
  show Instant.rank _ ≤ Instant.rank _
  rw [rank_endOfWait, rank_endOfWait, Instant.rank_latest]
  rw [Instant.rank_eq, Instant.rank_eq] at hrank
  simp only [rankAfter, Instant.rank_eq, hs, ht, Nat.zero_add]
  split <;> split <;> rename_i hearlier hlater <;> unfold StaysInLeap at hearlier hlater
  · omega
  · omega
  · omega
  · omega

/-- A longer wait is over no earlier. A wait that begins in the last second of the calendar is left
out: it may end in a leap second there, which comes after the moment that is counted as the last. -/
theorem endOfWait_le_of_le {shorter longer : Duration}
    (hgrace : shorter.nanoseconds ≤ longer.nanoseconds) {t : Instant} (ht : t.day < lastDay) :
    endOfWait shorter t ≤ endOfWait longer t := by
  have hnano := t.nano_lt
  have hcount : t.count < lastDay * 86400 := by
    have hsecond := t.second_lt
    unfold Instant.count
    omega
  show Instant.rank _ ≤ Instant.rank _
  rw [rank_endOfWait, rank_endOfWait, Instant.rank_latest]
  simp only [rankAfter, Instant.rank_eq]
  split <;> split <;> rename_i hshort hlong <;> unfold StaysInLeap at hshort hlong
  · omega
  · omega
  · omega
  · omega

/-! ### Selection for deletion -/

theorem day_lt_of_cordonedAt {node : Node} {t : Instant} (h : node.cordonedAt = .ok t) :
    t.day < lastDay := by
  unfold Node.cordonedAt at h
  split at h
  · exact nomatch h
  · split at h
    · exact nomatch h
    · rename_i stamp _
      rcases hparse : Rfc3339.parse stamp with e | u
      · rw [hparse] at h
        exact nomatch h
      · rw [hparse] at h
        obtain rfl := Except.ok.inj h
        exact Rfc3339.day_lt_of_parse hparse

variable {shorter longer : Duration} {early late : Instant}

/-- From any nodes two selections fail alike, or the one that asks for less selects what the other
does, and maybe more. -/
theorem doomed_go_mono (hgrace : shorter.nanoseconds ≤ longer.nanoseconds) (hclock : early ≤ late)
    (s : Snapshot) (nodes : List Node) :
    (∃ e, doomed.go longer s early nodes = .error e ∧ doomed.go shorter s late nodes = .error e) ∨
    ∃ gone more, doomed.go longer s early nodes = .ok gone ∧
      doomed.go shorter s late nodes = .ok more ∧ gone.Sublist more := by
  induction nodes with
  | nil => exact .inr ⟨[], [], rfl, rfl, .slnil⟩
  | cons node rest ih =>
    simp only [doomed.go]
    rcases hat : node.cordonedAt with e | t
    · exact .inl ⟨e, rfl, rfl⟩
    rcases ih with ⟨e, hlonger, hshorter⟩ | ⟨gone, more, hlonger, hshorter, hsub⟩
    · rw [hlonger, hshorter]
      exact .inl ⟨e, rfl, rfl⟩
    rw [hlonger, hshorter]
    refine .inr ⟨_, _, rfl, rfl, ?_⟩
    have hover : expiry longer t ≤ early → expiry shorter t ≤ late := by
      rw [expiry_eq, expiry_eq]
      intro h
      have hwait := endOfWait_le_of_le hgrace (day_lt_of_cordonedAt hat)
      exact Instant.le_trans (Instant.le_trans hwait h) hclock
    split
    · rename_i hgoes
      rw [if_pos ⟨hgoes.1, hover hgoes.2⟩]
      exact hsub.cons_cons node
    · split
      · exact hsub.cons node
      · exact hsub

/-- Let one of two grace periods be at most as long as the other, and one of two times at most as
late. If the times of cordoning can all be read, the nodes selected under the longer period at the
earlier time are selected under the shorter one at the later time, in the same order. The selections
fail alike. Under the longest wait, or a period that is longer still, nothing is selected before the
last moment. -/
theorem doomed_stay_doomed (hgrace : shorter.nanoseconds ≤ longer.nanoseconds)
    (hclock : early ≤ late) (s : Snapshot) :
    ((∀ node ∈ s.cordoned, ∃ t, node.cordonedAt = .ok t) →
      ∃ gone more, doomed longer s early = .ok gone ∧ doomed shorter s late = .ok more ∧
        gone.Sublist more) ∧
    (∀ e, doomed longer s early = .error e ↔ doomed shorter s late = .error e) ∧
    (longestWait ≤ longer.nanoseconds → early < .latest →
      ∀ gone, doomed longer s early = .ok gone → gone = []) := by
  refine ⟨fun hreadable => ?_, fun e => ?_, fun hlong hearly gone hgone => ?_⟩
  · rcases doomed_go_mono hgrace hclock s s.cordoned with ⟨e, hlonger, -⟩ | hselected
    · obtain ⟨gone, hgone⟩ := doomed_go_ok hreadable
      exact nomatch hlonger.symm.trans hgone
    · exact hselected
  · unfold doomed
    rcases doomed_go_mono hgrace hclock s s.cordoned with
      ⟨e', hlonger, hshorter⟩ | ⟨gone, more, hlonger, hshorter, -⟩
    · rw [hlonger, hshorter]
    · rw [hlonger, hshorter]
      exact iff_of_false nofun nofun
  · refine List.eq_nil_iff_forall_not_mem.mpr fun node hnode => ?_
    obtain ⟨-, -, t, -, hover⟩ := ((doomed_go_spec hgone).2 node).mp hnode
    rw [expiry_eq, endOfWait, Instant.add?_eq_none (by exact_mod_cast hlong)] at hover
    exact absurd (show Instant.latest.rank ≤ early.rank from hover) (not_le.mpr hearly)

/-- A node that was cordoned in the middle of a leap second, and one whose time of cordoning is the
latest that can be read. -/
def leapSnapshot : Snapshot where
  nodes := [
    { id := "a", capacity := 1000, cordoned := true, stamp := some "2016-12-31T23:59:60.5Z" },
    { id := "b", capacity := 1000, cordoned := true, stamp := some "9999-12-31T23:59:60-23:59" }]
  pods := []

/-- Eleven tenths of a second after the end of the leap second of 2016. -/
def afterLeap : Instant :=
  ⟨17167, 1, 100000000, by decide, by decide, by decide, by decide, by decide⟩

/-- Four tenths of a second end inside the leap second, sixteen tenths after it. -/
theorem doomed_stay_doomed_leap :
    let short : Duration := ⟨400000000⟩
    let long : Duration := ⟨1600000000⟩
    short.nanoseconds ≤ long.nanoseconds ∧ afterLeap ≤ afterLeap ∧
    (∀ node ∈ leapSnapshot.cordoned, ∃ t, node.cordonedAt = .ok t) ∧
    (∃ gone more, doomed long leapSnapshot afterLeap = .ok gone ∧ gone.map (·.id) = ["a"] ∧
      doomed short leapSnapshot afterLeap = .ok more ∧ gone.Sublist more) ∧
    long.nanoseconds ≤ longestWait ∧ afterLeap < .latest ∧
    ∀ gone, doomed ⟨longestWait⟩ leapSnapshot afterLeap = .ok gone → gone = [] := by
  intro short long
  have hreadable : ∀ node ∈ leapSnapshot.cordoned, ∃ t, node.cordonedAt = .ok t := by
    intro node hnode
    obtain rfl | rfl : node = _ ∨ node = _ := by
      simpa [leapSnapshot, Snapshot.cordoned] using hnode
    · exact ⟨_, rfl⟩
    · exact ⟨_, rfl⟩
  obtain ⟨gone, more, hlong, hshort, hsub⟩ :=
    (doomed_stay_doomed (show short.nanoseconds ≤ long.nanoseconds by decide)
      (show afterLeap ≤ afterLeap by decide) leapSnapshot).1 hreadable
  refine ⟨by decide, by decide, hreadable, ⟨gone, more, hlong, ?_, hshort, hsub⟩, by decide,
    by decide, (doomed_stay_doomed (show long.nanoseconds ≤ longestWait by decide)
      (show afterLeap ≤ afterLeap by decide) leapSnapshot).2.2 le_rfl (by decide)⟩
  have hids : (doomed long leapSnapshot afterLeap).map (·.map (·.id)) = .ok ["a"] := by
    decide +kernel
  rw [hlong] at hids
  exact Except.ok.inj hids

end Scaling

end Headroom
