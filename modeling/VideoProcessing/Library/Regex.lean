import Mathlib.Data.List.Basic

/-!
# Regular expressions that match a beginning

A backtracking matcher as the list of what it can leave of the text, in the order in which it tries
them. `mem_rests` says that these are the remainders of the language, and `capture_eq_some_iff` says
which text a group between two expressions takes when both have words of one length only.
-/

/-- Expressions over the symbols `α`. -/
inductive Regex (α : Type*)
  | empty
  /-- one symbol of a class -/
  | set (p : α → Bool)
  | seq (r r' : Regex α)
  /-- `r?` -/
  | opt (r : Regex α)
  /-- one or more symbols of a class -/
  | plus (p : α → Bool)

namespace Regex

variable {α : Type*}

/-- This text. -/
def literal [DecidableEq α] : List α → Regex α
  | [] => .empty
  | c :: w => .seq (.set (· = c)) (literal w)

/-- `r{n}`. -/
def times : ℕ → Regex α → Regex α
  | 0, _ => .empty
  | n + 1, r => .seq r (times n r)

/-- The words of an expression. -/
def Matches : Regex α → List α → Prop
  | .empty, w => w = []
  | .set p, w => ∃ c, w = [c] ∧ p c = true
  | .seq r r', w => ∃ u v, w = u ++ v ∧ r.Matches u ∧ r'.Matches v
  | .opt r, w => w = [] ∨ r.Matches w
  | .plus p, w => w ≠ [] ∧ ∀ c ∈ w, p c = true

/-! ## The matcher -/

/-- What one or more symbols of a class can leave, longest first. -/
def plusRests (p : α → Bool) : List α → List (List α)
  | [] => []
  | c :: s => if p c then plusRests p s ++ [s] else []

/-- What a match of a beginning of the text can leave of it. -/
def rests : Regex α → List α → List (List α)
  | .empty, s => [s]
  | .set _, [] => []
  | .set p, c :: s => if p c then [s] else []
  | .seq r r', s => (r.rests s).flatMap r'.rests
  | .opt r, s => r.rests s ++ [s]
  | .plus p, s => plusRests p s

/-- What a repetition leaves is what follows some characters of its set. -/
theorem mem_plusRests {p : α → Bool} {s rest : List α} :
    rest ∈ plusRests p s ↔ ∃ w, s = w ++ rest ∧ w ≠ [] ∧ ∀ c ∈ w, p c = true := by
  induction s with
  | nil =>
    simp only [plusRests, List.not_mem_nil, false_iff, not_exists, not_and]
    intro w hw hne
    exact absurd (List.append_eq_nil_iff.mp hw.symm).1 hne
  | cons c s ih =>
    rw [plusRests]
    split
    · rename_i hc
      rw [List.mem_append, ih, List.mem_singleton]
      constructor
      · rintro (⟨w, rfl, -, hw⟩ | rfl)
        · exact ⟨c :: w, rfl, List.cons_ne_nil _ _, List.forall_mem_cons.mpr ⟨hc, hw⟩⟩
        · exact ⟨[c], rfl, List.cons_ne_nil _ _, by simpa using hc⟩
      · rintro ⟨w, hs, hne, hw⟩
        obtain ⟨d, w, rfl⟩ := List.exists_cons_of_ne_nil hne
        obtain ⟨rfl, rfl⟩ := List.cons.inj hs
        -- the match ends here or goes on
        cases w with
        | nil => exact .inr rfl
        | cons e w =>
          exact .inl ⟨e :: w, rfl, List.cons_ne_nil _ _,
            fun x hx => hw x (List.mem_cons_of_mem _ hx)⟩
    · rename_i hc
      simp only [List.not_mem_nil, false_iff, not_exists, not_and]
      rintro w hs hne hw
      obtain ⟨d, w, rfl⟩ := List.exists_cons_of_ne_nil hne
      obtain ⟨rfl, -⟩ := List.cons.inj hs
      exact hc (hw _ List.mem_cons_self)

/-- The matcher leaves what follows a word of the expression. -/
theorem mem_rests {r : Regex α} {s rest : List α} :
    rest ∈ r.rests s ↔ ∃ w, s = w ++ rest ∧ r.Matches w := by
  induction r generalizing s rest with
  | empty => simp [rests, Matches, eq_comm]
  | set p =>
    cases s with
    | nil => simp [rests, Matches]
    | cons c s =>
      simp only [rests, Matches]
      constructor
      · intro h
        split at h
        · rename_i hc
          obtain rfl := List.mem_singleton.mp h
          exact ⟨[c], rfl, c, rfl, hc⟩
        · exact nomatch h
      · rintro ⟨w, hs, d, rfl, hd⟩
        obtain ⟨rfl, rfl⟩ := List.cons.inj hs
        simp [hd]
  | seq r r' ih ih' =>
    -- what the first part leaves, the second goes on with
    simp only [rests, Matches, List.mem_flatMap, ih, ih']
    constructor
    · rintro ⟨_, ⟨u, rfl, hu⟩, v, rfl, hv⟩
      exact ⟨u ++ v, (List.append_assoc ..).symm, u, v, rfl, hu, hv⟩
    · rintro ⟨_, rfl, u, v, rfl, hu, hv⟩
      exact ⟨v ++ rest, ⟨u, List.append_assoc .., hu⟩, v, rfl, hv⟩
  | opt r ih =>
    simp only [rests, Matches, List.mem_append, List.mem_singleton, ih]
    constructor
    -- the part is taken or left out
    · rintro (⟨w, rfl, hw⟩ | rfl)
      · exact ⟨w, rfl, .inr hw⟩
      · exact ⟨[], rfl, .inl rfl⟩
    · rintro ⟨w, rfl, rfl | hw⟩
      · exact .inr rfl
      · exact .inl ⟨w, rfl, hw⟩
  | plus p => exact mem_plusRests

/-! ## Words -/

@[simp] theorem literal_matches [DecidableEq α] {w v : List α} : (literal w).Matches v ↔ v = w := by
  induction w generalizing v with
  | nil => rfl
  | cons c w ih =>
    simp only [literal, Matches, ih, decide_eq_true_eq]
    constructor
    · rintro ⟨_, _, rfl, ⟨_, rfl, rfl⟩, rfl⟩
      rfl
    · rintro rfl
      exact ⟨[c], w, rfl, ⟨c, rfl, rfl⟩, rfl⟩

@[simp] theorem times_set_matches {n : ℕ} {p : α → Bool} {w : List α} :
    (times n (.set p)).Matches w ↔ w.length = n ∧ ∀ c ∈ w, p c = true := by
  induction n generalizing w with
  | zero => simp +contextual [times, Matches, List.length_eq_zero_iff]
  | succ n ih =>
    simp only [times, Matches, ih]
    constructor
    · rintro ⟨_, v, rfl, ⟨c, rfl, hc⟩, hlength, hv⟩
      exact ⟨congrArg (· + 1) hlength, List.forall_mem_cons.mpr ⟨hc, hv⟩⟩
    · rintro ⟨hlength, hw⟩
      obtain ⟨c, v, rfl⟩ := List.exists_cons_of_length_eq_add_one hlength
      obtain ⟨hc, hv⟩ := List.forall_mem_cons.mp hw
      exact ⟨[c], v, rfl, ⟨c, rfl, hc⟩, Nat.succ.inj hlength, hv⟩

/-- Every word has this length. -/
def Long (r : Regex α) (n : ℕ) : Prop := ∀ w, r.Matches w → w.length = n

/-- A literal is as long as it is. -/
theorem literal_long [DecidableEq α] (w : List α) : (literal w).Long w.length :=
  fun _ hv => congrArg List.length (literal_matches.mp hv)

/-! ## A group -/

/-- The text of a group in the first match of `before(group)after` that leaves what `stop`
accepts. -/
def capture (before group after : Regex α) (stop : List α → Bool) (s : List α) : Option (List α) :=
  (before.rests s).findSome? fun s₁ => (group.rests s₁).findSome? fun s₂ =>
    if (after.rests s₂).any stop then some (s₁.take (s₁.length - s₂.length)) else none

/-- Where the words before and in the group have one length each, there is one way to match. -/
theorem capture_eq_some_iff {before group after : Regex α} {stop : List α → Bool} {s g : List α}
    {n n' : ℕ} (hbefore : before.Long n) (hgroup : group.Long n') :
    capture before group after stop s = some g ↔
      ∃ u v rest, s = u ++ (g ++ (v ++ rest)) ∧ before.Matches u ∧ group.Matches g ∧
        after.Matches v ∧ stop rest = true := by
  have hsound {g : List α} (h : capture before group after stop s = some g) :
      ∃ u v rest, s = u ++ (g ++ (v ++ rest)) ∧ before.Matches u ∧ group.Matches g ∧
        after.Matches v ∧ stop rest = true := by
    obtain ⟨s₁, h₁, hgroups⟩ := List.exists_of_findSome?_eq_some h
    obtain ⟨s₂, h₂, hafter⟩ := List.exists_of_findSome?_eq_some hgroups
    obtain ⟨u, rfl, hu⟩ := mem_rests.mp h₁
    obtain ⟨w, rfl, hw⟩ := mem_rests.mp h₂
    split at hafter
    · rename_i hany
      obtain ⟨rest, hrest, hstop⟩ := List.any_eq_true.mp hany
      obtain ⟨v, rfl, hv⟩ := mem_rests.mp hrest
      have hg : w = g := by simpa using hafter
      exact ⟨u, v, rest, by rw [hg], hu, hg ▸ hw, hv, hstop⟩
    · exact nomatch hafter
  refine ⟨hsound, ?_⟩
  rintro ⟨u, v, rest, rfl, hu, hg, hv, hstop⟩
  cases hcapture : capture before group after stop (u ++ (g ++ (v ++ rest))) with
  | none =>
    have h₁ := List.findSome?_eq_none_iff.mp hcapture _ (mem_rests.mpr ⟨u, rfl, hu⟩)
    have h₂ := List.findSome?_eq_none_iff.mp h₁ _ (mem_rests.mpr ⟨g, rfl, hg⟩)
    have hany : (after.rests (v ++ rest)).any stop = true :=
      List.any_eq_true.mpr ⟨rest, mem_rests.mpr ⟨v, rfl, hv⟩, hstop⟩
    rw [if_pos hany] at h₂
    exact nomatch h₂
  | some g' =>
    -- parts of fixed lengths are cut at the same places
    obtain ⟨u', v', rest', heq, hu', hg', -, -⟩ := hsound hcapture
    have hrest := (List.append_inj heq ((hbefore u hu).trans (hbefore u' hu').symm)).2
    have hsame := (List.append_inj hrest ((hgroup g hg).trans (hgroup g' hg').symm)).1
    exact congrArg some hsame.symm

end Regex
