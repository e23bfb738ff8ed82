/-! Sums of quantities. -/
namespace Stockroom
set_option autoImplicit false

def total : List Int → Int
  | [] => 0
  | q :: qs => q + total qs

@[simp] theorem total_nil : total [] = 0 := rfl

@[simp] theorem total_cons (q : Int) (qs : List Int) : total (q :: qs) = q + total qs := rfl

theorem total_append (ps qs : List Int) : total (ps ++ qs) = total ps + total qs := by
  induction ps with
  | nil => simp
  | cons p ps ih =>
    rw [List.cons_append, total_cons, total_cons, ih]
    omega

theorem total_nonneg {qs : List Int} (h : ∀ q ∈ qs, 0 ≤ q) : 0 ≤ total qs := by
  induction qs with
  | nil => exact Int.le_refl 0
  | cons q qs ih =>
    have s1 := h q List.mem_cons_self
    have s2 := ih fun p hp => h p (List.mem_cons_of_mem q hp)
    rw [total_cons]
    omega

theorem le_total_of_mem {q : Int} {qs : List Int} (h : ∀ p ∈ qs, 0 ≤ p)
    (hq : q ∈ qs) : q ≤ total qs := by
  induction qs with
  | nil => cases hq
  | cons p qs ih =>
    have hp := h p List.mem_cons_self
    have hs : ∀ p ∈ qs, 0 ≤ p := fun p hp => h p (List.mem_cons_of_mem _ hp)
    have s1 := total_nonneg hs
    rw [total_cons]
    rcases List.mem_cons.1 hq with rfl | hm
    · omega
    · have s2 := ih hs hm
      omega

theorem total_filter_le {α : Type} {f : α → Int} {xs : List α} (p : α → Bool)
    (h : ∀ x ∈ xs, 0 ≤ f x) :
    total ((xs.filter p).map f) ≤ total (xs.map f) := by
  induction xs with
  | nil => exact Int.le_refl 0
  | cons x xs ih =>
    have s1 := h x List.mem_cons_self
    have s2 := ih fun y hy => h y (List.mem_cons_of_mem x hy)
    rw [List.filter_cons, List.map_cons, total_cons]
    split
    · rw [List.map_cons, total_cons]
      omega
    · omega

/-- What is sorted out and what is left add up to the whole. -/
theorem total_filter_add {α : Type} (f : α → Int) (p : α → Bool) (xs : List α) :
    total ((xs.filter p).map f) + total ((xs.filter fun x => !p x).map f) = total (xs.map f) := by
  induction xs with
  | nil => rfl
  | cons x xs ih =>
    rw [List.map_cons, total_cons, ← ih]
    cases hx : p x <;> simp [hx] <;> omega

end Stockroom
