import LineCalculator.Proofs.Grammar.Derivation
import LineCalculator.Proofs.Grammar.Instantiation
import LineCalculator.Proofs.Substitution.Compiled
import LineCalculator.Proofs.Substitution.Operand
import LineCalculator.Proofs.Substitution.Words
/-! # Evaluating the text of a tree

Substitution works on characters and knows nothing of the grammar. On the text of a syntax tree it
does what putting rendered values in the stead of the variables does to the tree.

* `letterKind`: the classes of characters that are kept apart where a text is written.
* `spells_substitute`: the text after substitution spells the lexemes of the instantiated tree.
* `evaluate_eq_value`: the value of the text is that of the tree.
-/

namespace LineCalculator.Substitution
set_option autoImplicit false
open Text Expression

variable {env : Environment}

/-! ## Where lexemes meet -/

/-- The classes of characters that must not meet between two lexemes: letters of either case, and
the characters of numerals. -/
def letterKind (c : Char) : Option TokenKind :=
  if Decimal.isNumeralChar c then some .numeral
  else if c.isAlpha then some .word
  else none

theorem isAlpha_of_isLower {c : Char} (h : c.isLower = true) : c.isAlpha = true := by
  simp [Char.isAlpha, h]

theorem isNumeralChar_of_isAlpha {c : Char} (h : c.isAlpha = true) :
    Decimal.isNumeralChar c = false := by
  have hd : c.isDigit = false := by
    apply Bool.eq_false_iff.2
    intro hd
    rw [isAlpha_eq_false_of_isDigit hd] at h
    cases h
  have hp : c ≠ '.' := by
    rintro rfl
    cases h
  simp [Decimal.isNumeralChar, hd, hp]

theorem letterKind_of_isAlpha {c : Char} (h : c.isAlpha = true) : letterKind c = some .word := by
  simp [letterKind, h, isNumeralChar_of_isAlpha h]

/-- A character that ends a word and runs together with no token. -/
def Separates (c : Char) : Prop := isWord c = false ∧ tokenKind c = none

theorem separates_space : Separates ' ' := by
  constructor
  · decide
  · decide

theorem separates_of_mark {c : Char} (h : (Lexeme.mark c).Proper) : Separates c := by
  have hall : ∀ x ∈ ['+', '-', '*', '/', '(', ')'], isWord x = false ∧ tokenKind x = none := by
    decide
  exact hall c h

/-- A variable is bound, and the name of a function that is applied is not. -/
def Fits (env : Environment) : Lexeme → Prop
  | .name a => env.contains a = true
  | .function f => env.contains f.name = false
  | _ => True

theorem text_ne_nil {l : Lexeme} (h : Fits env l) : l.text ≠ [] := by
  cases l with
  | mark c => exact List.cons_ne_nil c []
  | numeral n => exact n.text_ne_nil
  | name a => exact (Environment.isName_of_contains h).1
  | function f => exact name_toList_ne_nil f

section Row
variable {ls : List Lexeme} {text : List Char} {c : Char}
    (h : Spells letterKind (ls.map Lexeme.text) text) (hfits : ∀ l ∈ ls, Fits env l)
    (hproper : ∀ l ∈ ls, l.Proper) (hc : c ∈ text.head?)
include h hfits hc

/-- A row of lexemes goes on with a space or with the first character of its first lexeme. -/
theorem eq_space_or_mem_head? : c = ' ' ∨ ∃ l ∈ ls.head?, c ∈ l.text.head? := by
  have hne : ∀ w ∈ ls.map Lexeme.text, w ≠ [] := by
    intro w hw
    obtain ⟨l, hl, rfl⟩ := List.mem_map.1 hw
    exact text_ne_nil (hfits l hl)
  refine (h.head? hne hc).imp id fun ⟨w, hw, hcw⟩ => ?_
  rw [List.head?_map] at hw
  obtain ⟨l, hl, rfl⟩ := Option.map_eq_some_iff.1 hw
  exact ⟨l, hl, hcw⟩

include hproper

/-- Before a mark, or at the end, the text goes on with a character that separates. -/
theorem separates_of_isMark (hm : ∀ l ∈ ls.head?, l.IsMark) : Separates c := by
  rcases eq_space_or_mem_head? h hfits hc with rfl | ⟨l, hl, hcl⟩
  · exact separates_space
  · have hml := hm l hl
    have hpl := hproper l (List.mem_of_mem_head? hl)
    cases l with
    | mark d =>
      cases hcl
      exact separates_of_mark hpl
    | numeral n => cases hml
    | name a => cases hml
    | function f => cases hml

/-- A character that begins a lexeme, or stands before it, is a letter, a digit, or neither part of
a word nor of a name. -/
theorem head?_cases :
    c.isAlpha = true ∨ c.isDigit = true ∨ isWord c = false ∧ tokenKind c ≠ some .word := by
  rcases eq_space_or_mem_head? h hfits hc with rfl | ⟨l, hl, hcl⟩
  · exact .inr (.inr (by decide))
  · have hfl := hfits l (List.mem_of_mem_head? hl)
    have hpl := hproper l (List.mem_of_mem_head? hl)
    have hmem : c ∈ l.text := List.mem_of_mem_head? hcl
    cases l with
    | mark d =>
      cases hcl
      obtain ⟨hw, hk⟩ := separates_of_mark hpl
      exact .inr (.inr ⟨hw, by rw [hk]; exact nofun⟩)
    | numeral n =>
      by_cases hp : c = '.'
      · subst hp
        exact .inr (.inr (by decide))
      · exact .inr (.inl (isDigit_of_isNumeralChar (n.isNumeral.1 c hmem) hp))
    | name a => exact .inl ((Environment.isName_of_contains hfl).2 c hmem)
    | function f => exact .inl (isAlpha_of_isLower (isLower_of_mem_name f c hmem))

end Row

/-! ## Substitution lexeme by lexeme -/

/-- The characters of a numeral are not touched. -/
theorem substitute_numeral (env : Environment) {w t : List Char}
    (hw : ∀ c ∈ w, Decimal.isNumeralChar c = true)
    (ht : ∀ c ∈ t.head?, isWord c = false) :
    substitute env (w ++ t) = w ++ substitute env t := by
  induction w with
  | nil => rfl
  | cons c w ih =>
    obtain ⟨hc, hw⟩ := List.forall_mem_cons.1 hw
    have ih := ih hw
    by_cases hp : c = '.'
    · subst hp
      rw [List.cons_append, substitute_cons env _ (by decide), ih, List.cons_append]
    · have hd := isDigit_of_isNumeralChar hc hp
      have hword : ∀ x ∈ [c], isWord x = true := by simpa using isWord_of_isDigit hd
      have hn : ¬ IsName (String.ofList [c]) :=
        not_isName_of_mem (List.mem_singleton.2 rfl) (isAlpha_eq_false_of_isDigit hd)
      have hnext : ∀ x ∈ (w ++ t).head?, x.isDigit = true ∨ isWord x = false := by
        intro x hx
        cases w with
        | nil => exact .inr (ht x hx)
        | cons y w =>
          cases hx
          by_cases hxp : x = '.'
          · subst hxp
            exact .inr (by decide)
          · exact .inl (isDigit_of_isNumeralChar (hw x List.mem_cons_self) hxp)
      have h := substitute_append_of_head? env hword (by simp) (replace_eq_self env hn) hnext
      rw [List.singleton_append] at h
      rw [List.cons_append, h, ih]
      rfl

theorem replace_name {a : String} (h : env.contains a = true) :
    replace env a.toList = render (env.lookup a) := by
  rw [replace, String.ofList_toList, Environment.get?_eq_some_lookup h]

theorem replace_function {f : Builtin} (h : env.contains f.name = false) :
    replace env f.name.toList = f.name.toList := by
  rw [replace, String.ofList_toList, Environment.get?_eq_none h]

/-- What follows the name of a function does not run together with it after substitution. -/
theorem tokenKind_head?_substitute {t : List Char}
    (h : ∀ c ∈ t.head?, c.isDigit = true ∨ isWord c = false ∧ tokenKind c ≠ some .word) :
    ∀ c ∈ (substitute env t).head?, tokenKind c ≠ some .word := by
  intro c hc
  cases t with
  | nil => cases hc
  | cons d t =>
    rcases h d rfl with hd | ⟨hw, hk⟩
    · rw [substitute_digit_cons env hd] at hc
      cases hc
      rw [tokenKind_of_isNumeralChar (isNumeralChar_of_isDigit hd)]
      exact nofun
    · rw [substitute_cons env t hw] at hc
      cases hc
      exact hk

/-- A text after substitution spells the lexemes of the tree with rendered values in it. -/
theorem spells_substitute {ls : List Lexeme} {text : List Char}
    (h : Spells letterKind (ls.map Lexeme.text) text) (hchain : ls.IsChain Lexeme.MayPrecede)
    (hfits : ∀ l ∈ ls, Fits env l) (hproper : ∀ l ∈ ls, l.Proper) :
    Spells tokenKind
      ((ls.flatMap (Lexeme.instantiate fun a => operand (env.lookup a))).map Lexeme.text)
      (substitute env text) := by
  induction ls generalizing text with
  | nil =>
    cases h with
    | blanks n =>
      have hb := substitute_blanks env n []
      rw [List.append_nil] at hb
      rw [hb]
      exact .blanks_append n (.blanks 0)
  | cons l ls ih =>
    cases h with
    | @word n _ _ rest hrest hmax =>
      obtain ⟨hnext, hchain⟩ := List.isChain_cons.1 hchain
      obtain ⟨hfl, hfls⟩ := List.forall_mem_cons.1 hfits
      obtain ⟨hpl, hpls⟩ := List.forall_mem_cons.1 hproper
      have ih := ih hrest hchain hfls hpls
      rw [substitute_blanks, List.flatMap_cons, List.map_append]
      apply Spells.blanks_append n
      cases l with
      | mark c =>
        obtain ⟨hw, hk⟩ := separates_of_mark hpl
        have hs : substitute env ((Lexeme.mark c).text ++ rest) = c :: substitute env rest :=
          substitute_cons env rest hw
        rw [hs]
        exact spells_mark ih hk
      | numeral n =>
        have hsep : ∀ c ∈ rest.head?, Separates c :=
          fun c hc => separates_of_isMark hrest hfls hpls hc hnext
        have hs := substitute_numeral env n.isNumeral.1 fun c hc => (hsep c hc).1
        have hhead := head?_substitute env fun c hc => (hsep c hc).1
        rw [Lexeme.text, hs]
        refine .word 0 ih (Apart.of_right _ fun c hc => ?_)
        exact (hsep c (hhead ▸ hc)).2
      | name a =>
        have hsep : ∀ c ∈ rest.head?, Separates c :=
          fun c hc => separates_of_isMark hrest hfls hpls hc hnext
        have hname := Environment.isName_of_contains hfl
        have hs := substitute_word_append env (fun c hc => isWord_of_isAlpha (hname.2 c hc)) hname.1
          fun c hc => (hsep c hc).1
        have hhead := head?_substitute env fun c hc => (hsep c hc).1
        rw [Lexeme.text, hs, replace_name hfl]
        refine spells_operand _ ih (Apart.of_right _ fun c hc => ?_)
        exact (hsep c (hhead ▸ hc)).2
      | function f =>
        have hlower := isLower_of_mem_name f
        have hw : ∀ c ∈ f.name.toList, isWord c = true :=
          fun c hc => isWord_of_isAlpha (isAlpha_of_isLower (hlower c hc))
        have hcases : ∀ c ∈ rest.head?, c.isDigit = true ∨ isWord c = false ∧
            tokenKind c ≠ some .word := by
          intro c hc
          refine (head?_cases hrest hfls hpls hc).resolve_left fun ha => ?_
          have hx := List.getLast?_eq_some_getLast (name_toList_ne_nil f)
          have hl := hlower _ (List.mem_of_getLast? hx)
          have hk := letterKind_of_isAlpha (isAlpha_of_isLower hl)
          rcases hmax _ hx c hc with hn | hn
          · rw [hk] at hn
            cases hn
          · exact hn (hk.trans (letterKind_of_isAlpha ha).symm)
        have hs := substitute_append_of_head? env hw (name_toList_ne_nil f) (replace_function hfl)
          fun c hc => (hcases c hc).imp id fun h => h.1
        rw [Lexeme.text, hs]
        refine .word 0 ih fun x hx c hc => .inr ?_
        rw [tokenKind_of_isLower (hlower x (List.mem_of_getLast? hx))]
        exact (tokenKind_head?_substitute hcases c hc).symm

theorem resolved_instantiate {e : SumTree} :
    ∀ l ∈ (e.instantiate fun a => operand (env.lookup a)).lexemes, l.Resolved env := by
  intro l hl
  rw [SumTree.lexemes_instantiate] at hl
  obtain ⟨m, -, hlm⟩ := List.mem_flatMap.1 hl
  cases m with
  | name a => exact resolved_operand env (env.lookup a) l hlm
  | mark c => rw [List.mem_singleton.1 hlm]; trivial
  | numeral n => rw [List.mem_singleton.1 hlm]; trivial
  | function f => rw [List.mem_singleton.1 hlm]; trivial

end LineCalculator.Substitution
