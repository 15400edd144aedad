import Mathlib.Data.List.TakeWhile
import VideoProcessing.Library.Python

/-!
# Pure paths

`PurePath.name` and `PurePath.suffix` of a path given as text, with the separator of POSIX systems
and the suffixes of Python 3.14, for which a single dot after a name is one.
-/

namespace Pathlib

open Python

/-- The components of a path: empty ones and single dots do not count. -/
def tail (path : Str) : List Str := (path.splitOn 47).filter fun x => x ≠ [] ∧ x ≠ [46]

/-- `PurePath(path).name`. -/
def name (path : Str) : Str := (tail path).getLast?.getD []

/-- `os.path.splitext` of a name: the text from its last dot on is the extension, unless only dots
stand before it. -/
def splitext (name : Str) : Str × Str :=
  let extension := (name.reverse.takeWhile (· ≠ 46)).reverse
  let stem := (name.reverse.dropWhile (· ≠ 46)).tail.reverse
  if 46 ∈ name ∧ ∃ c ∈ stem, c ≠ 46 then (stem, 46 :: extension) else (name, [])

/-- `PurePath(path).suffix`. -/
def suffix (path : Str) : Str := (splitext (name path)).2

/-! ## Names -/

/-- A part of a path has no slash. -/
theorem not_mem_of_mem_splitOn {path part : Str} (h : part ∈ path.splitOn 47) : 47 ∉ part := by
  induction path generalizing part with
  | nil =>
    obtain rfl := List.mem_singleton.mp h
    exact List.not_mem_nil
  | cons c path ih =>
    obtain ⟨first, parts, heq⟩ := List.exists_cons_of_ne_nil (List.splitOn_ne_nil 47 path)
    rw [List.splitOn_cons_eq_if_modifyHead, heq, List.modifyHead_cons] at h
    rw [heq] at ih
    split at h
    · rcases List.mem_cons.mp h with rfl | h
      · exact List.not_mem_nil
      · exact ih h
    · rename_i hc
      rcases List.mem_cons.mp h with rfl | h
      · rw [List.mem_cons, not_or]
        exact ⟨fun heq => hc (by simp [heq]), ih List.mem_cons_self⟩
      · exact ih (List.mem_cons_of_mem _ h)

/-- The texts that are their own name. -/
theorem name_eq_self {path : Str} (hne : path ≠ []) :
    name path = path ↔ 47 ∉ path ∧ path ≠ [46] := by
  constructor
  · intro h
    cases hlast : (tail path).getLast? with
    | none =>
      rw [name, hlast] at h
      exact absurd h.symm hne
    | some part =>
      rw [name, hlast, Option.getD_some] at h
      have hmem := List.mem_of_getLast? hlast
      rw [tail, h, List.mem_filter, decide_eq_true_iff] at hmem
      exact ⟨not_mem_of_mem_splitOn hmem.1, hmem.2.2⟩
  · rintro ⟨hslash, hdot⟩
    rw [name, tail, List.splitOn_eq_singleton hslash, List.filter_cons_of_pos (by simp [hne, hdot])]
    rfl

/-! ## Extensions -/

/-- A name parted at its last dot. -/
theorem splitext_of_last {stem extension : Str} (hextension : 46 ∉ extension) :
    splitext (stem ++ 46 :: extension) =
      if ∃ c ∈ stem, c ≠ 46 then (stem, 46 :: extension) else (stem ++ 46 :: extension, []) := by
  have hall : ∀ c ∈ extension.reverse, decide (c ≠ 46) = true := by
    intro c hc
    rw [decide_eq_true_iff]
    rintro rfl
    exact hextension (List.mem_reverse.mp hc)
  have hreverse : (stem ++ 46 :: extension).reverse = extension.reverse ++ 46 :: stem.reverse := by
    rw [List.reverse_append, List.reverse_cons, List.append_assoc]
    rfl
  have htake : (stem ++ 46 :: extension).reverse.takeWhile (· ≠ 46) = extension.reverse := by
    rw [hreverse, List.takeWhile_append_of_pos hall]
    simp
  have hdrop : (stem ++ 46 :: extension).reverse.dropWhile (· ≠ 46) = 46 :: stem.reverse := by
    rw [hreverse, List.dropWhile_append_of_pos hall]
    simp
  have hdot : 46 ∈ stem ++ 46 :: extension := List.mem_append_right _ List.mem_cons_self
  simp only [splitext, htake, hdrop, List.tail_cons, List.reverse_reverse, hdot, true_and]

/-- A name with an extension ends in a dot and what follows it, and not only dots come before. -/
theorem splitext_snd {name extension : Str} : (splitext name).2 = 46 :: extension ↔
    46 ∉ extension ∧ ∃ stem, name = stem ++ 46 :: extension ∧ ∃ c ∈ stem, c ≠ 46 := by
  constructor
  · intro h
    by_cases hdot : 46 ∈ name
    · obtain ⟨tail, front, hreverse, htail⟩ :=
        List.eq_append_cons_of_mem (List.mem_reverse.mpr hdot)
      have hname : name = front.reverse ++ 46 :: tail.reverse := by
        rw [← name.reverse_reverse, hreverse, List.reverse_append, List.reverse_cons,
          List.append_assoc]
        rfl
      have htail : 46 ∉ tail.reverse := fun hmem => htail (List.mem_reverse.mp hmem)
      rw [hname, splitext_of_last htail] at h
      split at h
      · rename_i hstem
        obtain rfl := (List.cons.inj h).2
        exact ⟨htail, _, hname, hstem⟩
      · exact nomatch h
    · rw [splitext, if_neg fun hand => hdot hand.1] at h
      exact nomatch h
  · rintro ⟨hextension, stem, rfl, hstem⟩
    rw [splitext_of_last hextension, if_pos hstem]

/-- An extension begins with its dot. -/
theorem suffix_ne_nil {path : Str} :
    suffix path ≠ [] ↔ ∃ extension, suffix path = 46 :: extension := by
  constructor
  · intro h
    by_cases hname : 46 ∈ name path ∧
        ∃ c ∈ ((name path).reverse.dropWhile (· ≠ 46)).tail.reverse, c ≠ 46
    · exact ⟨_, by rw [suffix, splitext, if_pos hname]⟩
    · rw [suffix, splitext, if_neg hname] at h
      exact absurd rfl h
  · rintro ⟨extension, h⟩
    rw [h]
    exact List.cons_ne_nil _ _

end Pathlib
