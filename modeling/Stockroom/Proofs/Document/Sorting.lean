import Stockroom.Document.Envelope

/-! Messages in the order of their sequence numbers. The order is stable, so it is known
from its groups: it is the only ascending list in which the messages of each number
stand as they did before. -/
namespace Stockroom.Envelope
set_option autoImplicit false

def numbered (n : Nat) (vs : List Envelope) : List Envelope :=
  vs.filter fun v => v.sequenceNumber = n

def atMost (v w : Envelope) : Bool := decide (v.sequenceNumber ≤ w.sequenceNumber)

/-- Messages with one number keep their order. -/
def sort (vs : List Envelope) : List Envelope := vs.mergeSort atMost

theorem mem_numbered {n : Nat} {vs : List Envelope} {v : Envelope} :
    v ∈ numbered n vs ↔ v ∈ vs ∧ v.sequenceNumber = n := by
  simp [numbered]

theorem numbered_cons_self (v : Envelope) (vs : List Envelope) :
    numbered v.sequenceNumber (v :: vs) = v :: numbered v.sequenceNumber vs := by
  simp [numbered]

theorem numbered_cons_of_ne {n : Nat} {v : Envelope} (h : v.sequenceNumber ≠ n)
    (vs : List Envelope) :
    numbered n (v :: vs) = numbered n vs := by
  simp [numbered, h]

theorem mem_sort {vs : List Envelope} {v : Envelope} : v ∈ sort vs ↔ v ∈ vs := List.mem_mergeSort

/-! ## Order -/

theorem atMost_trans (u v w : Envelope) (h1 : atMost u v = true)
    (h2 : atMost v w = true) : atMost u w = true :=
  decide_eq_true (Nat.le_trans (of_decide_eq_true h1) (of_decide_eq_true h2))

theorem atMost_total (v w : Envelope) : (atMost v w || atMost w v) = true := by
  simp only [atMost, Bool.or_eq_true, decide_eq_true_eq]
  exact Nat.le_total _ _

theorem ascending_sort (vs : List Envelope) :
    (sort vs).Pairwise fun v w => v.sequenceNumber ≤ w.sequenceNumber :=
  (List.pairwise_mergeSort atMost_trans atMost_total vs).imp of_decide_eq_true

theorem ascending_of_number {n : Nat} {vs : List Envelope} (h : ∀ v ∈ vs, v.sequenceNumber = n) :
    vs.Pairwise fun v w => v.sequenceNumber ≤ w.sequenceNumber := by
  refine List.pairwise_of_forall_mem_list fun v hv w hw => ?_
  exact Nat.le_of_eq ((h v hv).trans (h w hw).symm)

theorem numbered_sort (n : Nat) (vs : List Envelope) : numbered n (sort vs) = numbered n vs := by
  have s0 : (numbered n vs).Pairwise fun v w => atMost v w = true :=
    (ascending_of_number fun v hv => (mem_numbered.1 hv).2).imp decide_eq_true
  have s1 : (numbered n vs).Sublist (sort vs) :=
    List.sublist_mergeSort atMost_trans atMost_total s0 List.filter_sublist
  have s2 : (numbered n (numbered n vs)).Sublist (numbered n (sort vs)) := s1.filter _
  have s3 : numbered n (numbered n vs) = numbered n vs :=
    List.filter_filter.trans (by simp [numbered])
  rw [s3] at s2
  have s4 : (numbered n (sort vs)).length = (numbered n vs).length :=
    ((List.mergeSort_perm vs atMost).filter _).length_eq
  exact (s2.eq_of_length s4.symm).symm

theorem mem_of_numbered_eq {vs ws : List Envelope} (h : ∀ n, numbered n vs = numbered n ws)
    {v : Envelope} (hv : v ∈ vs) : v ∈ ws := by
  have s : v ∈ numbered v.sequenceNumber vs := mem_numbered.2 ⟨hv, rfl⟩
  rw [h] at s
  exact (mem_numbered.1 s).1

theorem first_le {v : Envelope} {vs : List Envelope}
    (h : (v :: vs).Pairwise fun v w => v.sequenceNumber ≤ w.sequenceNumber) {w : Envelope}
    (hw : w ∈ v :: vs) :
    v.sequenceNumber ≤ w.sequenceNumber := by
  rcases List.mem_cons.1 hw with rfl | hw
  · exact Nat.le_refl _
  · exact (List.pairwise_cons.1 h).1 w hw

/-- Two ascending lists with the same groups are the same. -/
theorem eq_of_numbered_eq {vs ws : List Envelope}
    (hv : vs.Pairwise fun v w => v.sequenceNumber ≤ w.sequenceNumber)
    (hw : ws.Pairwise fun v w => v.sequenceNumber ≤ w.sequenceNumber)
    (h : ∀ n, numbered n vs = numbered n ws) : vs = ws := by
  induction vs generalizing ws with
  | nil => exact (List.eq_nil_iff_forall_not_mem.2 fun w hw =>
    nomatch mem_of_numbered_eq (fun n => (h n).symm) hw).symm
  | cons v vs ih =>
    have s1 : v ∈ ws := mem_of_numbered_eq h List.mem_cons_self
    cases ws with
    | nil => cases s1
    | cons w ws =>
      have s2 : w ∈ v :: vs := mem_of_numbered_eq (fun n => (h n).symm) List.mem_cons_self
      have same : v.sequenceNumber = w.sequenceNumber :=
        Nat.le_antisymm (first_le hv s2) (first_le hw s1)
      have s3 := h v.sequenceNumber
      rw [numbered_cons_self, same, numbered_cons_self] at s3
      obtain ⟨rfl, s4⟩ := List.cons.inj s3
      rw [ih (List.pairwise_cons.1 hv).2 (List.pairwise_cons.1 hw).2 fun n => ?_]
      by_cases hn : v.sequenceNumber = n
      · rw [← hn]
        exact s4
      · have s5 := h n
        rw [numbered_cons_of_ne hn, numbered_cons_of_ne hn] at s5
        exact s5

end Stockroom.Envelope
