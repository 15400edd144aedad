import Mathlib.Data.List.Nodup

/-!
# What someone sees of a list

Of the entries of a list some matter to an observer, who keeps them in a list of his own, each in
his own terms. An entry that is added or changed is one he adds or changes too, or one he does not
see.
-/

namespace Selection

/-- `ys` are the wanted entries of `xs` as the observer sees them, and stand at these places. -/
structure Picks {α β : Type*} (wanted : α → Prop) (R : α → β → Prop) (xs : List α) (ys : List β)
    (places : List ℕ) : Prop where
  nodup : places.Nodup
  length : places.length = ys.length
  mem : ∀ n, n ∈ places ↔ ∃ x, xs[n]? = some x ∧ wanted x
  view : ∀ (i n : ℕ) x y, places[i]? = some n → xs[n]? = some x → ys[i]? = some y → R x y

variable {α β : Type*} {wanted wanted' : α → Prop} {R R' : α → β → Prop} {xs : List α}
  {ys : List β} {places : List ℕ} {i n : ℕ} {x x' : α} {y y' : β}

/-- Nothing is wanted yet. -/
theorem Picks.nothing (h : ∀ (n : ℕ) x, xs[n]? = some x → ¬ wanted x) :
    Picks wanted R xs [] [] where
  nodup := List.nodup_nil
  length := rfl
  mem := fun n => iff_of_false (fun hn => by cases hn) fun ⟨x, hx, hwanted⟩ => h n x hx hwanted
  view := fun i n x y hi => by simp at hi

/-- A wanted entry is seen. -/
theorem Picks.exists_view (h : Picks wanted R xs ys places) (hx : xs[n]? = some x)
    (hwanted : wanted x) : ∃ (i : ℕ) (y : β), places[i]? = some n ∧ ys[i]? = some y ∧ R x y := by
  obtain ⟨i, hi⟩ := List.mem_iff_getElem?.mp ((h.mem n).mpr ⟨x, hx, hwanted⟩)
  obtain ⟨hlt, -⟩ := List.getElem?_eq_some_iff.mp hi
  rw [h.length] at hlt
  exact ⟨i, ys[i], hi, List.getElem?_eq_getElem hlt,
    h.view i n x _ hi hx (List.getElem?_eq_getElem hlt)⟩

/-- What is seen is an entry. -/
theorem Picks.exists_entry (h : Picks wanted R xs ys places) (hi : places[i]? = some n) :
    ∃ x, xs[n]? = some x ∧ wanted x :=
  (h.mem n).mp (List.mem_of_getElem? hi)

/-- Another observer who wants the same entries. -/
theorem Picks.congr (h : Picks wanted R xs ys places)
    (hwanted : ∀ (n : ℕ) x, xs[n]? = some x → (wanted' x ↔ wanted x))
    (hview : ∀ (n : ℕ) x y, xs[n]? = some x → wanted x → R x y → R' x y) :
    Picks wanted' R' xs ys places where
  nodup := h.nodup
  length := h.length
  mem := fun n => by
    rw [h.mem]
    exact exists_congr fun x => and_congr_right fun hx => (hwanted n x hx).symm
  view := fun i n x y hi hx hy => by
    obtain ⟨x', hx', hwanted⟩ := h.exists_entry hi
    obtain rfl := Option.some.inj (hx.symm.trans hx')
    exact hview n x y hx hwanted (h.view i n x y hi hx hy)

/-- The places are those of entries. -/
theorem Picks.lt_length (h : Picks wanted R xs ys places) (hn : n ∈ places) : n < xs.length := by
  obtain ⟨x, hx, -⟩ := (h.mem n).mp hn
  exact (List.getElem?_eq_some_iff.mp hx).1

/-- An entry that nobody wants is added. -/
theorem Picks.skip (h : Picks wanted R xs ys places) (hx : ¬ wanted x) :
    Picks wanted R (xs ++ [x]) ys places where
  nodup := h.nodup
  length := h.length
  mem := fun n => by
    rw [h.mem]
    refine exists_congr fun x' => and_congr_left fun hx' => ?_
    rcases Nat.lt_trichotomy n xs.length with hlt | rfl | hgt
    · rw [List.getElem?_append_left hlt]
    · rw [List.getElem?_concat_length, List.getElem?_eq_none (Nat.le_refl _)]
      refine iff_of_false (fun heq => by cases heq) fun heq => hx ?_
      obtain rfl := Option.some.inj heq
      exact hx'
    · rw [List.getElem?_eq_none (Nat.le_of_lt hgt), List.getElem?_eq_none]
      rw [List.length_append]
      exact hgt
  view := fun i n x' y hi hx' hy => by
    have hlt := h.lt_length (List.mem_of_getElem? hi)
    rw [List.getElem?_append_left hlt] at hx'
    exact h.view i n x' y hi hx' hy

/-- A wanted entry is added. -/
theorem Picks.concat (h : Picks wanted R xs ys places) (hx : wanted x) (hxy : R x y) :
    Picks wanted R (xs ++ [x]) (ys ++ [y]) (places ++ [xs.length]) where
  nodup := by
    refine List.nodup_append.mpr ⟨h.nodup, List.nodup_singleton _, ?_⟩
    rintro n hn _ hlast rfl
    exact absurd (List.mem_singleton.mp hlast) (Nat.ne_of_lt (h.lt_length hn))
  length := by rw [List.length_append, List.length_append, h.length]; rfl
  mem := fun n => by
    rw [List.mem_append, List.mem_singleton]
    -- the new place is the last one
    by_cases hn : n = xs.length
    · subst hn
      exact iff_of_true (.inr rfl) ⟨x, List.getElem?_concat_length, hx⟩
    · rw [or_iff_left hn, h.mem]
      refine exists_congr fun x' => and_congr_left fun _ => ?_
      rcases Nat.lt_or_gt_of_ne hn with hlt | hgt
      · rw [List.getElem?_append_left hlt]
      · rw [List.getElem?_eq_none (Nat.le_of_lt hgt), List.getElem?_eq_none]
        rw [List.length_append]
        exact hgt
  view := fun i n x' y' hi hx' hy' => by
    -- an entry of before, or the new one
    rcases Nat.lt_trichotomy i places.length with hlt | rfl | hgt
    · rw [List.getElem?_append_left hlt] at hi
      rw [List.getElem?_append_left (h.length ▸ hlt)] at hy'
      rw [List.getElem?_append_left (h.lt_length (List.mem_of_getElem? hi))] at hx'
      exact h.view i n x' y' hi hx' hy'
    · rw [List.getElem?_concat_length] at hi
      obtain rfl := Option.some.inj hi
      rw [List.getElem?_concat_length] at hx'
      rw [h.length, List.getElem?_concat_length] at hy'
      obtain rfl := Option.some.inj hx'
      obtain rfl := Option.some.inj hy'
      exact hxy
    · rw [List.getElem?_eq_none] at hi
      · cases hi
      · rw [List.length_append]
        exact hgt

/-- An entry that nobody wants changes to another one. -/
theorem Picks.set_skip (h : Picks wanted R xs ys places) (hx : xs[n]? = some x)
    (hnot : ¬ wanted x) (hnot' : ¬ wanted x') : Picks wanted R (xs.set n x') ys places where
  nodup := h.nodup
  length := h.length
  mem := fun m => by
    by_cases hm : n = m
    · subst hm
      rw [h.mem]
      refine iff_of_false ?_ ?_
      · rintro ⟨z, hz, hwanted⟩
        obtain rfl := Option.some.inj (hx.symm.trans hz)
        exact hnot hwanted
      · rintro ⟨z, hz, hwanted⟩
        rw [List.getElem?_set_self (List.getElem?_eq_some_iff.mp hx).1] at hz
        obtain rfl := Option.some.inj hz
        exact hnot' hwanted
    · rw [h.mem, List.getElem?_set_ne hm]
  view := fun i m z y hi hz hy => by
    have hm : n ≠ m := by
      rintro rfl
      obtain ⟨z', hz', hwanted⟩ := h.exists_entry hi
      obtain rfl := Option.some.inj (hx.symm.trans hz')
      exact hnot hwanted
    rw [List.getElem?_set_ne hm] at hz
    exact h.view i m z y hi hz hy

/-- A wanted entry changes, and what is seen of it. -/
theorem Picks.set (h : Picks wanted R xs ys places) (hi : places[i]? = some n) (hx' : wanted x')
    (hxy : R x' y') : Picks wanted R (xs.set n x') (ys.set i y') places where
  nodup := h.nodup
  length := by rw [List.length_set, h.length]
  mem := fun m => by
    by_cases hm : n = m
    · subst hm
      refine iff_of_true (List.mem_of_getElem? hi) ⟨x', ?_, hx'⟩
      exact List.getElem?_set_self (h.lt_length (List.mem_of_getElem? hi))
    · rw [h.mem, List.getElem?_set_ne hm]
  view := fun j m z y hj hz hy => by
    obtain ⟨hlt, -⟩ := List.getElem?_eq_some_iff.mp hi
    have hlt' : i < ys.length := h.length ▸ hlt
    -- the entry that was set, or another
    by_cases hij : i = j
    · subst hij
      obtain rfl := Option.some.inj (hi.symm.trans hj)
      rw [List.getElem?_set_self (h.lt_length (List.mem_of_getElem? hi))] at hz
      rw [List.getElem?_set_self hlt'] at hy
      obtain rfl := Option.some.inj hz
      obtain rfl := Option.some.inj hy
      exact hxy
    · -- the places are distinct
      have hm : n ≠ m := by
        rintro rfl
        exact hij ((List.getElem?_inj hlt h.nodup).mp (hi.trans hj.symm))
      rw [List.getElem?_set_ne hm] at hz
      rw [List.getElem?_set_ne hij] at hy
      exact h.view j m z y hj hz hy

/-! ## Lists related entry by entry -/

section

variable {α β : Type*} {R : α → β → Prop} {as : List α} {bs : List β} {n : ℕ} {a : α} {b : β}

/-- Related lists are related at every place. -/
theorem getElem?_of_forall₂ (h : List.Forall₂ R as bs) (ha : as[n]? = some a) :
    ∃ b, bs[n]? = some b ∧ R a b := by
  induction h generalizing n with
  | nil => simp at ha
  | @cons a' b' as bs hab _ ih =>
    cases n with
    | zero =>
      obtain rfl := Option.some.inj ha
      exact ⟨b', rfl, hab⟩
    | succ n => exact ih ha

/-- And stay so if related elements are put in. -/
theorem forall₂_set (h : List.Forall₂ R as bs) (hab : R a b) :
    List.Forall₂ R (as.set n a) (bs.set n b) := by
  induction h generalizing n with
  | nil => exact .nil
  | cons hhead htail ih =>
    cases n with
    | zero => exact .cons hab htail
    | succ n => exact .cons hhead ih

/-- And if both lose a place. -/
theorem forall₂_eraseIdx (h : List.Forall₂ R as bs) :
    List.Forall₂ R (as.eraseIdx n) (bs.eraseIdx n) := by
  induction h generalizing n with
  | nil => exact .nil
  | cons hhead htail ih =>
    cases n with
    | zero => exact htail
    | succ n => exact .cons hhead ih

/-- A test that agrees on related elements agrees on the lists. -/
theorem any_eq_of_forall₂ {p : α → Bool} {q : β → Bool} (h : List.Forall₂ R as bs)
    (hpq : ∀ a b, R a b → p a = q b) : as.any p = bs.any q := by
  induction h with
  | nil => rfl
  | cons hhead _ ih => rw [List.any_cons, List.any_cons, hpq _ _ hhead, ih]

end

end Selection
