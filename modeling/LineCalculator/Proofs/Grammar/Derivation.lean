import LineCalculator.Proofs.Grammar.Soundness
/-! # The values of a text are those of its derivations

* `SumTree.Derives env e text`: the tree `e` is a derivation of the text.
* `read_eq_ok_iff`: reading a text gives a value exactly when a derivation of it has that value.
-/

namespace LineCalculator.Expression
set_option autoImplicit false
open Text

variable {env : Environment}

/-- The text spells the lexemes of the tree, the names among them can be looked up, and no more
factors are open at once than the reader admits. -/
structure SumTree.Derives (env : Environment) (e : SumTree) (text : List Char) : Prop where
  spelled : Spells tokenKind (e.lexemes.map Lexeme.text) text
  resolved : ∀ l ∈ e.lexemes, l.Resolved env
  depth_le : e.depth ≤ maxOpenFactors

theorem isWord_of_forall {w : List Char} {k : TokenKind} (hne : w ≠ [])
    (h : ∀ c ∈ w, tokenKind c = some k) : IsWord w := by
  obtain ⟨c, more, rfl⟩ := List.exists_cons_of_ne_nil hne
  refine ⟨⟨c, more⟩, rfl, .inl ⟨k, h⟩, ?_⟩
  rintro rfl
  have hs := h _ List.mem_cons_self
  rw [tokenKind_space] at hs
  cases hs

/-- A lexeme of a derivation is a possible token. -/
theorem Lexeme.isWord {l : Lexeme} (hp : l.Proper) (hr : l.Resolved env) : IsWord l.text := by
  cases l with
  | mark c =>
    refine ⟨⟨c, []⟩, rfl, .inr ⟨?_, rfl⟩, ?_⟩
    · exact (by decide : ∀ x ∈ ['+', '-', '*', '/', '(', ')'], tokenKind x = none) c hp
    · exact (by decide : ∀ x ∈ ['+', '-', '*', '/', '(', ')'], x ≠ ' ') c hp
  | numeral n =>
    obtain ⟨hn, ⟨d, hd, -⟩, -⟩ := n.isNumeral
    exact isWord_of_forall (List.ne_nil_of_mem hd) fun c hc => tokenKind_of_isNumeralChar (hn c hc)
  | name a =>
    obtain ⟨hlower, -, hb⟩ := hr
    exact isWord_of_forall (Environment.isName_of_contains hb).1 fun c hc =>
      tokenKind_of_isLower (hlower c hc)
  | function f =>
    exact isWord_of_forall (name_toList_ne_nil f) fun c hc =>
      tokenKind_of_isLower (isLower_of_mem_name f c hc)

/-- What a text spells are its tokens. -/
theorem tokenTexts_of_lexemes {ls : List Lexeme} {text : List Char}
    (h : Spells tokenKind (ls.map Lexeme.text) text) (hp : ∀ l ∈ ls, l.Proper)
    (hr : ∀ l ∈ ls, l.Resolved env) : tokenTexts text = ls.map Lexeme.text := by
  apply tokenTexts_of_spells h
  intro w hw
  obtain ⟨l, hl, rfl⟩ := List.mem_map.1 hw
  exact l.isWord (hp l hl) (hr l hl)

theorem SumTree.Derives.tokenTexts_eq {e : SumTree} {text : List Char} (h : e.Derives env text) :
    tokenTexts text = e.lexemes.map Lexeme.text :=
  tokenTexts_of_lexemes h.spelled e.proper_lexemes h.resolved

/-- A text whose tokens are all read is one that a tree derives. -/
theorem exists_derives_of_run {text : List Char} {sum : Option (Float × Sign)} {y : Float}
    (h : (State.start.run env (tokens text)).result = .ok (.complete sum y [])) :
    ∃ e : SumTree, e.Derives env text ∧ (e.value env.lookup).result = .ok (total sum y) := by
  obtain ⟨ls, hls, hread⟩ := StateRead.start.run (fun _ => uniform_of_mem_tokens) h
  cases hread with
  | complete ho hsum ht =>
    cases ho
    obtain ⟨e, he, hr, hd, hv⟩ := hsum.total ht
    refine ⟨e, ⟨?_, hr, ?_⟩, hv⟩
    · rw [he]
      simpa [tokenTexts, ← hls] using spells_tokenTexts text
    · simpa [outside] using hd

/-- A text with a value has a derivation with that value. -/
theorem exists_derives_of_read {text : List Char} {y : Float}
    (h : (read env text).result = .ok y) :
    ∃ e : SumTree, e.Derives env text ∧ (e.value env.lookup).result = .ok y := by
  obtain ⟨s, hs, hf⟩ := Logged.result_bind_eq_ok.1 h
  cases s with
  | due level outer => cases hf
  | complete sum term outer =>
    cases outer with
    | cons level outer => cases hf
    | nil =>
      cases hf
      exact exists_derives_of_run hs

/-- Reading a text gives a value exactly when a derivation of the text has that value. -/
theorem read_eq_ok_iff (env : Environment) (text : List Char) (v : Float) :
    (read env text).result = .ok v ↔
      ∃ e : SumTree, e.Derives env text ∧ (e.value env.lookup).result = .ok v := by
  refine ⟨exists_derives_of_read, ?_⟩
  rintro ⟨e, he, hv⟩
  rw [read_eq_value he.tokenTexts_eq he.resolved he.depth_le]
  exact Logged.result_mapError_eq_ok.2 hv

end LineCalculator.Expression
