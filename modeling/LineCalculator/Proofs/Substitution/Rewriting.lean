import LineCalculator.Proofs.Substitution.Occurrence
import LineCalculator.Proofs.Substitution.Operand
/-! # Texts after substitution

What is put in the stead of a name has no letter in it, and it stands between characters that are
no word characters. So no word is made up where it meets the text around it, and a text can be
rewritten a second time word by word.

* `unbound_of_no_letter`: where no letter stands no name does.
* `words_mapWords`: the words of a rewritten text are those of its rewritten words.
* `mapWords_mapWords`: rewriting twice is rewriting every word twice.
* `unbound_substitute`: after substitution no bound name is left.
* `foldl_substituteWord`: replacing some names one by one is replacing all of them at once.
-/

namespace LineCalculator.Substitution
set_option autoImplicit false
open Text

/-! ## Pieces of a text -/

section Piece
variable {r : Run} {rest : List Char} (hu : r.Uniform wordKind)
include hu

theorem text_eq_of_not_isWord (hw : isWord r.first = false) : r.text = [r.first] :=
  hu.text_eq (wordKind_of_not_isWord hw)

variable (hw : isWord r.first = true)
include hw

theorem isWord_of_mem_text : ∀ c ∈ r.text, isWord c = true := by
  intro c hc
  by_contra hn
  have hk := hu.kind_eq (wordKind_of_isWord hw) c hc
  rw [wordKind_of_not_isWord (Bool.eq_false_iff.2 hn)] at hk
  cases hk

theorem isWord_head?_of_apart (ha : Apart wordKind r.text rest) :
    ∀ c ∈ rest.head?, isWord c = false := by
  intro c hc
  apply Bool.eq_false_iff.2
  intro hcw
  have hlast := List.getLast?_eq_some_getLast r.text_ne_nil
  have hk := wordKind_of_isWord (isWord_of_mem_text hu hw _ (List.mem_of_getLast? hlast))
  rcases ha _ hlast c hc with h | h
  · rw [hk] at h
    cases h
  · exact h (hk.trans (wordKind_of_isWord hcw).symm)

end Piece

/-! ## Rewriting twice -/

/-- Nothing but names is rewritten. -/
def RewritesNames (f : List Char → List Char) : Prop :=
  ∀ w, ¬ IsName (String.ofList w) → f w = w

theorem rewritesNames_replace (env : Environment) : RewritesNames (replace env) :=
  fun _ h => replace_eq_self env h

section Rewriting
variable {f g : List Char → List Char} (hf : RewritesNames f)
include hf

theorem RewritesNames.singleton {c : Char} (hc : isWord c = false) : f [c] = [c] :=
  hf [c] (not_isName_of_mem (List.mem_singleton.2 rfl) (isAlpha_eq_false_of_not_isWord hc))

theorem RewritesNames.head? {t : List Char} (h : ∀ c ∈ t.head?, isWord c = false) :
    (mapWords f t).head? = t.head? := by
  cases t with
  | nil => rfl
  | cons c t => rw [mapWords_cons t (h c rfl), hf.singleton (h c rfl)]; rfl

/-- A rewritten word does not run together with the rewritten text after it. -/
theorem RewritesNames.apart {r : Run} {rest : List Char} (hu : r.Uniform wordKind)
    (ha : Apart wordKind r.text rest) : Apart wordKind (f r.text) (mapWords f rest) := by
  by_cases hw : isWord r.first = true
  · have hrest := isWord_head?_of_apart hu hw ha
    refine Apart.of_right _ fun c hc => wordKind_of_not_isWord (hrest c ?_)
    rwa [hf.head? hrest] at hc
  · have hw := Bool.eq_false_iff.2 hw
    rw [text_eq_of_not_isWord hu hw, hf.singleton hw]
    exact Apart.after_char [] _ (wordKind_of_not_isWord hw)

theorem words_mapWords (t : List Char) :
    words (mapWords f t) = (words t).flatMap fun r => words (f r.text) := by
  induction t using cut_induction wordKind with
  | nil => rfl
  | run r rest hu ha ih =>
    have happ : mapWords f (r.text ++ rest) = f r.text ++ mapWords f rest := by
      rw [mapWords, words, runs_text_append hu ha]
      rfl
    rw [happ, words, runs_append (hf.apart hu ha)]
    rw [words, runs_text_append hu ha, List.flatMap_cons]
    exact congrArg _ ih

theorem mapWords_mapWords (t : List Char) :
    mapWords g (mapWords f t) = (words t).flatMap fun r => mapWords g (f r.text) := by
  rw [mapWords, words_mapWords hf, List.flatMap_assoc]
  rfl

end Rewriting

theorem mapWords_text {g : List Char → List Char} {t : List Char} {r : Run} (h : r ∈ words t) :
    mapWords g r.text = g r.text := by
  rw [mapWords, words, (uniform_of_mem_runs h).runs_text]
  simp

/-! ## Rendered values -/

theorem isAlpha_of_isNumeralChar {c : Char} (h : Decimal.isNumeralChar c = true) :
    c.isAlpha = false := by
  by_cases hp : c = '.'
  · rw [hp]
    rfl
  · exact isAlpha_eq_false_of_isDigit (Expression.isDigit_of_isNumeralChar h hp)

theorem isAlpha_of_mem_render {x : Float} {c : Char} (h : c ∈ render x) : c.isAlpha = false := by
  rcases mem_render h with hc | hc
  · exact isAlpha_of_isNumeralChar hc
  · exact (by decide : ∀ d ∈ ['-', '/', '(', ')'], d.isAlpha = false) c hc

theorem mem_of_mem_words {t : List Char} {r : Run} (h : r ∈ words t) {c : Char} (hc : c ∈ r.text) :
    c ∈ t := by
  rw [← flatten_words t]
  exact List.mem_flatMap.2 ⟨r, h, hc⟩

/-- Where no letter stands no name does. -/
theorem unbound_of_no_letter (env : Environment) {text : List Char}
    (h : ∀ c ∈ text, c.isAlpha = false) : Unbound env text := by
  intro r hr
  apply Bool.eq_false_iff.2
  intro hb
  have hfirst : r.first ∈ r.text := List.mem_cons_self
  exact not_isName_of_mem hfirst (h _ (mem_of_mem_words hr hfirst))
    (Environment.isName_of_contains hb)

theorem not_isName_of_mem_words_render {x : Float} {r : Run} (h : r ∈ words (render x)) :
    ¬ IsName (String.ofList r.text) :=
  not_isName_of_mem List.mem_cons_self
    (isAlpha_of_mem_render (mem_of_mem_words h List.mem_cons_self))

theorem mapWords_render {f : List Char → List Char} (hf : RewritesNames f) (x : Float) :
    mapWords f (render x) = render x := by
  have hruns : (words (render x)).flatMap (fun r => f r.text) =
      (words (render x)).flatMap Run.text :=
    List.flatMap_congr fun r hr => hf r.text (not_isName_of_mem_words_render hr)
  rw [mapWords, hruns, flatten_words]

theorem unbound_substitute (env : Environment) (text : List Char) :
    Unbound env (substitute env text) := by
  intro r hr
  rw [substitute_eq_mapWords, words_mapWords (rewritesNames_replace env)] at hr
  obtain ⟨r', hr', hr⟩ := List.mem_flatMap.1 hr
  rw [replace] at hr
  split at hr
  · exact unbound_of_no_letter env (fun c hc => isAlpha_of_mem_render hc) _ hr
  · rename_i hn
    rw [words, (uniform_of_mem_runs hr').runs_text] at hr
    rw [List.mem_singleton.1 hr, Environment.contains, hn]
    rfl

/-! ## One name after the other -/

/-- The word itself, or the value of the first binding of it. -/
def replaceIn (l : List Binding) (word : List Char) : List Char :=
  match Binding.find? (String.ofList word) l with
  | some x => render x
  | none => word

theorem replace_eq_replaceIn (env : Environment) : replace env = replaceIn env.bindings := rfl

theorem rewritesNames_replaceIn {l : List Binding} (hl : ∀ b ∈ l, IsName b.1) :
    RewritesNames (replaceIn l) := by
  intro w hw
  rw [replaceIn]
  split
  · rename_i x hx
    exact absurd (hl _ (Binding.exists_mem_of_find? hx)) hw
  · rfl

theorem replaceIn_cons (b : Binding) (l : List Binding) (word : List Char) :
    replaceIn (b :: l) word = if b.1 = String.ofList word then render b.2 else replaceIn l word := by
  by_cases h : b.1 = String.ofList word
  · simp only [replaceIn, Binding.find?, if_pos h]
  · simp only [replaceIn, Binding.find?, if_neg h]

theorem substituteWord_eq (b : Binding) (text : List Char) :
    substituteWord b.1 b.2 text = mapWords (replaceIn [b]) text := by
  refine List.flatMap_congr fun r _ => ?_
  rw [replaceIn_cons]
  by_cases h : b.1 = String.ofList r.text
  · rw [if_pos h, if_pos (by rw [h, String.toList_ofList])]
  · rw [if_neg h, if_neg fun he => h (by rw [he, String.ofList_toList])]
    rfl

theorem foldl_substituteWord {l : List Binding} (hl : ∀ b ∈ l, IsName b.1) (text : List Char) :
    l.foldl (fun t b => substituteWord b.1 b.2 t) text = mapWords (replaceIn l) text := by
  induction l generalizing text with
  | nil => exact (flatten_words text).symm
  | cons b l ih =>
    obtain ⟨hb, hl⟩ := List.forall_mem_cons.1 hl
    have hfirst : RewritesNames (replaceIn [b]) :=
      rewritesNames_replaceIn (List.forall_mem_singleton.2 hb)
    rw [List.foldl_cons, ih hl, substituteWord_eq, mapWords_mapWords hfirst]
    refine List.flatMap_congr fun r hr => ?_
    rw [replaceIn_cons, replaceIn_cons]
    by_cases h : b.1 = String.ofList r.text
    · -- the value that was put in is not touched again
      rw [if_pos h, if_pos h, mapWords_render (rewritesNames_replaceIn hl)]
    · rw [if_neg h, if_neg h]
      exact mapWords_text hr

theorem replaceIn_perm {l : List Binding} {env : Environment} (h : l.Perm env.bindings) :
    replaceIn l = replace env := by
  have hl : l.Pairwise fun a b => a.1 ≠ b.1 := h.symm.pairwise env.pairwise_ne Ne.symm
  funext word
  rw [replace_eq_replaceIn, replaceIn, replaceIn, Binding.find?_perm h hl]

end LineCalculator.Substitution
