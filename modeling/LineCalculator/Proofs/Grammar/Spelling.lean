import LineCalculator.Expression.Token
import LineCalculator.Proofs.Text.Cut
/-! # How lexemes are spelled in a text

A text spells a row of words when it consists of these words with any number of spaces before each
and at the end, and no word runs together with what directly follows it.

* `Spells kind ws text`: `text` spells the words `ws`, the classes of characters being `kind`.
* `SpellsBefore rest ws piece`: the same in front of `rest`, the last word being where `piece` ends.
* `IsWord w`: `w` is a possible token, that is a uniform run that is no space.
* `tokenTexts`: the tokens of a text without their places.
* `spells_iff`: a text spells the texts of its tokens, and no other words.
-/

namespace LineCalculator.Expression
set_option autoImplicit false
open Text

/-! ## Spelling -/

inductive Spells {κ : Type} (kind : Char → Option κ) : List (List Char) → List Char → Prop where
  | blanks (n : Nat) : Spells kind [] (List.replicate n ' ')
  | word (n : Nat) {w : List Char} {ws : List (List Char)} {text : List Char}
      (rest : Spells kind ws text) (maximal : Apart kind w text) :
      Spells kind (w :: ws) (List.replicate n ' ' ++ (w ++ text))

theorem Spells.space {κ : Type} {kind : Char → Option κ} {ws : List (List Char)}
    {text : List Char} (h : Spells kind ws text) : Spells kind ws (' ' :: text) := by
  cases h with
  | blanks n => exact .blanks (n + 1)
  | word n rest maximal => exact .word (n + 1) rest maximal

theorem Spells.blanks_append {κ : Type} {kind : Char → Option κ} {ws : List (List Char)}
    {text : List Char} (n : Nat) (h : Spells kind ws text) :
    Spells kind ws (List.replicate n ' ' ++ text) := by
  induction n with
  | zero => exact h
  | succ n ih => exact ih.space

/-- The first character of what is spelled is a space or begins the first word. -/
theorem Spells.head? {κ : Type} {kind : Char → Option κ} {ws : List (List Char)}
    {text : List Char} (h : Spells kind ws text) (hne : ∀ w ∈ ws, w ≠ []) {c : Char}
    (hc : c ∈ text.head?) : c = ' ' ∨ ∃ w ∈ ws.head?, c ∈ w.head? := by
  cases h with
  | blanks n =>
    cases n with
    | zero => cases hc
    | succ n =>
      cases hc
      exact .inl rfl
  | @word n w ws text rest maximal =>
    cases n with
    | zero =>
      obtain ⟨d, w, rfl⟩ := List.exists_cons_of_ne_nil (hne w (by simp))
      exact .inr ⟨d :: w, rfl, hc⟩
    | succ n =>
      cases hc
      exact .inl rfl

/-- What is spelled consists of spaces and words. -/
theorem Spells.eq_space_or_mem {κ : Type} {kind : Char → Option κ} {ws : List (List Char)}
    {text : List Char} (h : Spells kind ws text) {c : Char} (hc : c ∈ text) :
    c = ' ' ∨ ∃ w ∈ ws, c ∈ w := by
  induction h with
  | blanks n => exact .inl (List.eq_of_mem_replicate hc)
  | @word n w ws text rest maximal ih =>
    rcases List.mem_append.1 hc with hc | hc
    · exact .inl (List.eq_of_mem_replicate hc)
    rcases List.mem_append.1 hc with hc | hc
    · exact .inr ⟨w, List.mem_cons_self, hc⟩
    · exact (ih hc).imp id fun ⟨v, hv, hcv⟩ => ⟨v, List.mem_cons_of_mem w hv, hcv⟩

/-! ## Words in front of a text -/

inductive SpellsBefore (rest : List Char) : List (List Char) → List Char → Prop where
  | nil : SpellsBefore rest [] []
  | word (n : Nat) {w : List Char} {ws : List (List Char)} {piece : List Char}
      (more : SpellsBefore rest ws piece) (maximal : Apart tokenKind w (piece ++ rest)) :
      SpellsBefore rest (w :: ws) (List.replicate n ' ' ++ (w ++ piece))

section
variable {rest piece : List Char} {w : List Char} {ws vs : List (List Char)}

theorem SpellsBefore.of_cons (h : SpellsBefore rest (w :: ws) piece) :
    ∃ n more, piece = List.replicate n ' ' ++ (w ++ more) ∧ SpellsBefore rest ws more ∧
      Apart tokenKind w (more ++ rest) := by
  cases h with
  | word n more maximal => exact ⟨n, _, rfl, more, maximal⟩

theorem SpellsBefore.of_append (h : SpellsBefore rest (ws ++ vs) piece) :
    ∃ a b, piece = a ++ b ∧ SpellsBefore (b ++ rest) ws a ∧ SpellsBefore rest vs b := by
  induction ws generalizing piece with
  | nil => exact ⟨[], piece, rfl, .nil, h⟩
  | cons w ws ih =>
    obtain ⟨n, more, rfl, hmore, ha⟩ := h.of_cons
    obtain ⟨a, b, rfl, hws, hvs⟩ := ih hmore
    rw [List.append_assoc] at ha
    refine ⟨List.replicate n ' ' ++ (w ++ a), b, ?_, .word n hws ha, hvs⟩
    simp only [List.append_assoc]

theorem SpellsBefore.spells (h : SpellsBefore rest ws piece) (hrest : Spells tokenKind vs rest) :
    Spells tokenKind (ws ++ vs) (piece ++ rest) := by
  induction h with
  | nil => exact hrest
  | word n more maximal ih =>
    rw [List.append_assoc, List.append_assoc]
    exact .word n ih maximal

end

/-! ## Tokens as words -/

/-- The text of a possible token. -/
def IsWord (w : List Char) : Prop :=
  ∃ r : Run, r.text = w ∧ r.Uniform tokenKind ∧ r.first ≠ ' '

def tokenTexts (text : List Char) : List (List Char) :=
  (tokens text).map fun t => t.run.text

theorem tokenKind_space : tokenKind ' ' = none := by decide

theorem map_run_locate (start : Nat) (rs : List Run) :
    (locate start rs).map Token.run = rs.filter fun r => r.first ≠ ' ' := by
  induction rs generalizing start with
  | nil => rfl
  | cons r rs ih =>
    rw [locate]
    split
    · rename_i h
      rw [ih, List.filter_cons_of_neg (by simp [h])]
    · rename_i h
      rw [List.map_cons, ih, List.filter_cons_of_pos (by simp [h])]

theorem uniform_of_mem_tokens {t : Token} {text : List Char} (h : t ∈ tokens text) :
    t.run.Uniform tokenKind := by
  have hm : t.run ∈ (tokens text).map Token.run := List.mem_map_of_mem h
  rw [tokens, map_run_locate] at hm
  exact uniform_of_mem_runs (List.mem_filter.1 hm).1

theorem tokenTexts_eq (text : List Char) :
    tokenTexts text = ((runs tokenKind text).filter fun r => r.first ≠ ' ').map Run.text := by
  rw [← map_run_locate 0, List.map_map]
  rfl

@[simp] theorem tokenTexts_space (text : List Char) :
    tokenTexts (' ' :: text) = tokenTexts text := by
  rw [tokenTexts_eq, tokenTexts_eq, runs_cons_of_none text tokenKind_space,
    List.filter_cons_of_neg (by simp)]

theorem tokenTexts_blanks (n : Nat) (text : List Char) :
    tokenTexts (List.replicate n ' ' ++ text) = tokenTexts text := by
  induction n with
  | zero => rfl
  | succ n ih => rw [List.replicate_succ, List.cons_append, tokenTexts_space, ih]

theorem tokenTexts_word_append {w text : List Char} (hw : IsWord w)
    (h : Apart tokenKind w text) : tokenTexts (w ++ text) = w :: tokenTexts text := by
  obtain ⟨r, rfl, hu, hr⟩ := hw
  rw [tokenTexts_eq, runs_text_append hu h, List.filter_cons_of_pos (by simp [hr]),
    List.map_cons, ← tokenTexts_eq]

theorem isWord_of_mem_tokenTexts {w text : List Char} (h : w ∈ tokenTexts text) : IsWord w := by
  rw [tokenTexts_eq] at h
  obtain ⟨r, hr, rfl⟩ := List.mem_map.1 h
  obtain ⟨hr, hs⟩ := List.mem_filter.1 hr
  exact ⟨r, rfl, uniform_of_mem_runs hr, by simpa using hs⟩

theorem spells_tokenTexts (text : List Char) : Spells tokenKind (tokenTexts text) text := by
  induction text using cut_induction tokenKind with
  | nil => exact .blanks 0
  | run r rest hu ha ih =>
    by_cases hs : r.first = ' '
    · have h : r.text ++ rest = ' ' :: rest := by
        rw [hu.text_eq (hs ▸ tokenKind_space), hs]
        rfl
      rw [h, tokenTexts_space]
      exact ih.space
    · rw [tokenTexts_word_append ⟨r, rfl, hu, hs⟩ ha]
      exact .word 0 ih ha

theorem tokenTexts_of_spells {ws : List (List Char)} {text : List Char}
    (h : Spells tokenKind ws text) (hws : ∀ w ∈ ws, IsWord w) : tokenTexts text = ws := by
  induction h with
  | blanks n =>
    have h := tokenTexts_blanks n []
    rwa [List.append_nil] at h
  | word n rest maximal ih =>
    obtain ⟨hw, hws⟩ := List.forall_mem_cons.1 hws
    rw [tokenTexts_blanks, tokenTexts_word_append hw maximal, ih hws]

theorem spells_iff {ws : List (List Char)} {text : List Char} :
    Spells tokenKind ws text ∧ (∀ w ∈ ws, IsWord w) ↔ tokenTexts text = ws := by
  constructor
  · rintro ⟨h, hws⟩
    exact tokenTexts_of_spells h hws
  · rintro rfl
    exact ⟨spells_tokenTexts text, fun w hw => isWord_of_mem_tokenTexts hw⟩

end LineCalculator.Expression
