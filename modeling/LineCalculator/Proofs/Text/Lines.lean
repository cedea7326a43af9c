import LineCalculator.Text.Line
import Mathlib
/-! # The lines of a text

* `lines_of_none`, `lines_of_some`: one line at a time.
* `subset_of_mem_lines`: a line is made of the characters of its text.
* `lines_intercalate`: lines that were put together with line feeds between them are found again.
-/

namespace LineCalculator.Text
set_option autoImplicit false

variable {text line rest : List Char}

theorem lines_of_none (h : nextLine? text = none) : lines text = [] := by
  rw [lines]
  split
  · rfl
  · rename_i he
    rw [h] at he
    cases he

theorem lines_of_some (h : nextLine? text = some (line, rest)) :
    lines text = line :: lines rest := by
  rw [lines]
  split
  · rename_i he
    rw [h] at he
    cases he
  · rename_i he
    rw [h] at he
    cases he
    rfl

theorem dropReturn_subset (line : List Char) : dropReturn line ⊆ line := by
  unfold dropReturn
  split
  · exact List.dropLast_subset line
  · exact List.Subset.refl line

theorem subset_of_nextLine? (h : nextLine? text = some (line, rest)) :
    line ⊆ text ∧ rest ⊆ text := by
  cases text with
  | nil => cases h
  | cons c text =>
    have htake : (c :: text).takeWhile (· ≠ '\n') ⊆ c :: text :=
      (List.takeWhile_sublist _).subset
    have hdrop : (c :: text).dropWhile (· ≠ '\n') ⊆ c :: text :=
      (List.dropWhile_sublist _).subset
    simp only [nextLine?] at h
    split at h
    · cases h
      exact ⟨htake, List.nil_subset _⟩
    · rename_i d rest hd
      cases h
      rw [hd] at hdrop
      exact ⟨List.Subset.trans (dropReturn_subset _) htake,
        List.Subset.trans (List.subset_cons_self d rest) hdrop⟩

theorem subset_of_mem_lines (h : line ∈ lines text) : line ⊆ text := by
  induction text using lines.induct with
  | case1 text hn =>
    rw [lines_of_none hn] at h
    cases h
  | case2 text first rest hn ih =>
    rw [lines_of_some hn] at h
    obtain ⟨hfirst, hrest⟩ := subset_of_nextLine? hn
    rcases List.mem_cons.1 h with rfl | h
    · exact hfirst
    · exact List.Subset.trans (ih h) hrest

/-! ## Lines put together -/

theorem ne_feed_of_mem (h : '\n' ∉ line) : ∀ c ∈ line, decide (c ≠ '\n') = true := by
  intro c hc
  exact decide_eq_true fun he => h (he ▸ hc)

theorem nextLine?_append (rest : List Char) (hn : '\n' ∉ line) (hr : '\r' ∉ line) :
    nextLine? (line ++ '\n' :: rest) = some (line, rest) := by
  have htake : (line ++ '\n' :: rest).takeWhile (· ≠ '\n') = line := by
    rw [List.takeWhile_append_of_pos (ne_feed_of_mem hn)]
    exact List.append_nil line
  have hdrop : (line ++ '\n' :: rest).dropWhile (· ≠ '\n') = '\n' :: rest := by
    rw [List.dropWhile_append_of_pos (ne_feed_of_mem hn)]
    rfl
  have hreturn : dropReturn line = line := if_neg fun h => hr (List.mem_of_getLast? h)
  have hne : line ++ '\n' :: rest ≠ [] := by simp
  obtain ⟨c, more, he⟩ := List.exists_cons_of_ne_nil hne
  rw [he] at htake hdrop ⊢
  simp only [nextLine?, htake, hdrop, hreturn]

theorem nextLine?_last (hne : line ≠ []) (hn : '\n' ∉ line) :
    nextLine? line = some (line, []) := by
  have htake := List.takeWhile_eq_self_iff.2 (ne_feed_of_mem hn)
  have hdrop := List.dropWhile_eq_nil_iff.2 (ne_feed_of_mem hn)
  obtain ⟨c, more, rfl⟩ := List.exists_cons_of_ne_nil hne
  simp only [nextLine?, htake, hdrop]

theorem lines_intercalate {ls : List (List Char)}
    (h : ∀ l ∈ ls, l ≠ [] ∧ '\n' ∉ l ∧ '\r' ∉ l) : lines (['\n'].intercalate ls) = ls := by
  induction ls with
  | nil => exact lines_of_none rfl
  | cons l ls ih =>
    obtain ⟨⟨hne, hn, hr⟩, hls⟩ := List.forall_mem_cons.1 h
    cases ls with
    | nil =>
      rw [List.intercalate_singleton, lines_of_some (nextLine?_last hne hn), lines_of_none rfl]
    | cons m ls =>
      rw [List.intercalate_cons_cons, List.append_assoc, List.singleton_append,
        lines_of_some (nextLine?_append _ hn hr), ih hls]

end LineCalculator.Text
