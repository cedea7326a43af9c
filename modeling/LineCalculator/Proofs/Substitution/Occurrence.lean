import LineCalculator.Proofs.Substitution.Words
/-! # Occurrences of bound names

* `Occurrence env before name after`: a bound name stands as a whole word between two texts.
* `occurrence_induction`: induction on a text from one occurrence to the next.
* `parenthesize env text`: the text with every bound name in parentheses.
* `substitute_parenthesize`: substitution puts the values in the parentheses.
-/

namespace LineCalculator.Substitution
set_option autoImplicit false
open Text

variable {env : Environment} {f : List Char → List Char}

/-! ## Texts without bound names -/

/-- No word of the text is bound. -/
def Unbound (env : Environment) (text : List Char) : Prop :=
  ∀ r ∈ words text, env.contains (String.ofList r.text) = false

theorem Unbound.mapWords_eq {text : List Char} (h : Unbound env text)
    (hf : ∀ w, env.contains (String.ofList w) = false → f w = w) : mapWords f text = text := by
  have hruns : (words text).flatMap (fun r => f r.text) = (words text).flatMap Run.text := by
    apply List.flatMap_congr
    intro r hr
    exact hf r.text (h r hr)
  rw [mapWords, hruns, words, flatten_runs]

theorem Unbound.run_append {r : Run} {rest : List Char} (h : Unbound env rest)
    (hu : r.Uniform wordKind) (ha : Apart wordKind r.text rest)
    (hr : env.contains (String.ofList r.text) = false) : Unbound env (r.text ++ rest) := by
  intro r' hr'
  rw [words, runs_text_append hu ha] at hr'
  rcases List.mem_cons.1 hr' with rfl | hr'
  · exact hr
  · exact h r' hr'

/-! ## Occurrences -/

/-- A bound name stands as a whole word between two texts. -/
structure Occurrence (env : Environment) (before name after : List Char) : Prop where
  bound : env.contains (String.ofList name) = true
  left : Apart wordKind before name
  right : Apart wordKind name after

namespace Occurrence
variable {before name after : List Char} (h : Occurrence env before name after)
include h

theorem isWord : ∀ c ∈ name, isWord c = true := by
  intro c hc
  have hn := Environment.isName_of_contains h.bound
  exact isWord_of_isAlpha (hn.2 c (by rwa [String.toList_ofList]))

theorem ne_nil : name ≠ [] := by
  have hn := (Environment.isName_of_contains h.bound).1
  rwa [String.toList_ofList] at hn

theorem isWord_getLast? : ∀ c ∈ before.getLast?, Text.isWord c = false := by
  intro c hc
  obtain ⟨d, more, rfl⟩ := List.exists_cons_of_ne_nil h.ne_nil
  apply Bool.eq_false_iff.2
  intro hw
  have hd := wordKind_of_isWord (h.isWord d List.mem_cons_self)
  rcases h.left c hc d rfl with hn | hn
  · rw [wordKind_of_isWord hw] at hn
    cases hn
  · exact hn ((wordKind_of_isWord hw).trans hd.symm)

theorem isWord_head? : ∀ c ∈ after.head?, Text.isWord c = false := by
  intro c hc
  apply Bool.eq_false_iff.2
  intro hw
  have hx := List.getLast?_eq_some_getLast h.ne_nil
  have hlast := wordKind_of_isWord (h.isWord _ (List.mem_of_getLast? hx))
  rcases h.right _ hx c hc with hn | hn
  · rw [hlast] at hn
    cases hn
  · exact hn (hlast.trans (wordKind_of_isWord hw).symm)

theorem mapWords_eq :
    mapWords f (before ++ (name ++ after)) = mapWords f before ++ (f name ++ mapWords f after) := by
  have hleft : Apart wordKind before (name ++ after) :=
    h.left.congr_right (by rw [List.head?_append_of_ne_nil _ h.ne_nil])
  rw [mapWords_append hleft, mapWords_word_append h.isWord h.ne_nil h.isWord_head?]

theorem replace_eq : replace env name = render (env.lookup (String.ofList name)) := by
  rw [replace, Environment.get?_eq_some_lookup h.bound]

omit h

theorem of_append {rest : List Char} (h : Occurrence env before name (after ++ rest)) :
    Occurrence env before name after := ⟨h.bound, h.left, h.right.of_append⟩

theorem append_left {a : List Char} (h : Occurrence env before name after)
    (ha : Apart wordKind a (before ++ name)) : Occurrence env (a ++ before) name after :=
  ⟨h.bound, h.left.append_left ha, h.right⟩

end Occurrence

/-- A text has no bound names in it, or a first one. -/
theorem unbound_or_exists_occurrence (env : Environment) (text : List Char) :
    Unbound env text ∨ ∃ before name after, text = before ++ (name ++ after) ∧
      Unbound env before ∧ Occurrence env before name after := by
  induction text using cut_induction wordKind with
  | nil => exact .inl nofun
  | run r rest hu ha ih =>
    by_cases hb : env.contains (String.ofList r.text) = true
    · exact .inr ⟨[], r.text, rest, rfl, nofun, hb, Apart.nil_left wordKind r.text, ha⟩
    have hb := Bool.eq_false_iff.2 hb
    rcases ih with h | ⟨before, name, after, rfl, h, ho⟩
    · exact .inl (h.run_append hu ha hb)
    · have hname : Apart wordKind r.text (before ++ name) := by
        rw [← List.append_assoc] at ha
        exact ha.of_append
      exact .inr ⟨r.text ++ before, name, after, by rw [List.append_assoc],
        h.run_append hu hname.of_append hb, ho.append_left hname⟩

/-- Induction on a text, from one bound name to the next. -/
@[elab_as_elim]
theorem occurrence_induction (env : Environment) {P : List Char → Prop}
    (unbound : ∀ text, Unbound env text → P text)
    (occurrence : ∀ before name after, Unbound env before → Occurrence env before name after →
      P after → P (before ++ (name ++ after))) (text : List Char) : P text := by
  induction hn : text.length using Nat.strongRecOn generalizing text with
  | ind n ih =>
    rcases unbound_or_exists_occurrence env text with h | ⟨before, name, after, rfl, h, ho⟩
    · exact unbound text h
    · have hpos := List.length_pos_of_ne_nil ho.ne_nil
      have hlt : after.length < n := by
        rw [← hn, List.length_append, List.length_append]
        omega
      exact occurrence before name after h ho (ih after.length hlt after rfl)

/-! ## Parentheses -/

/-- The word, in parentheses if it is bound. -/
def enclose (env : Environment) (word : List Char) : List Char :=
  if env.contains (String.ofList word) then '(' :: (word ++ [')']) else word

/-- The text with every bound name in parentheses. -/
def parenthesize (env : Environment) (text : List Char) : List Char :=
  mapWords (enclose env) text

/-- The word, or its value in parentheses if it is bound. -/
def encloseValue (env : Environment) (word : List Char) : List Char :=
  if env.contains (String.ofList word) then '(' :: (replace env word ++ [')']) else word

namespace Unbound
variable {text : List Char} (h : Unbound env text)
include h

theorem substitute_eq : substitute env text = text :=
  h.mapWords_eq fun w hw => by rw [replace, Environment.get?_eq_none hw]

theorem enclose_eq : mapWords (enclose env) text = text :=
  h.mapWords_eq fun w hw => by rw [enclose, if_neg (by simp [hw])]

theorem encloseValue_eq : mapWords (encloseValue env) text = text :=
  h.mapWords_eq fun w hw => by rw [encloseValue, if_neg (by simp [hw])]

end Unbound

theorem encloseValue_cons {c : Char} (t : List Char) (hc : isWord c = false) :
    mapWords (encloseValue env) (c :: t) = c :: mapWords (encloseValue env) t := by
  have hb : ¬ env.contains (String.ofList [c]) = true := fun hb =>
    not_isName_of_mem (List.mem_singleton.2 rfl) (isAlpha_eq_false_of_not_isWord hc)
      (Environment.isName_of_contains hb)
  rw [mapWords_cons t hc, encloseValue, if_neg hb]
  rfl

theorem substitute_parenthesize (text : List Char) :
    substitute env (parenthesize env text) = mapWords (encloseValue env) text := by
  induction text using occurrence_induction env with
  | unbound text h => rw [parenthesize, h.enclose_eq, h.substitute_eq, h.encloseValue_eq]
  | occurrence before name after h ho ih =>
    have hopen : isWord '(' = false := by decide
    have hclose : isWord ')' = false := by decide
    rw [parenthesize, ho.mapWords_eq, ho.mapWords_eq, h.enclose_eq, h.encloseValue_eq, enclose,
      encloseValue, if_pos ho.bound, if_pos ho.bound, ← ih]
    simp only [List.cons_append, List.append_assoc, List.nil_append]
    have happart : Apart wordKind before ('(' :: (name ++ ')' :: parenthesize env after)) :=
      Apart.before_char before _ (wordKind_of_not_isWord hopen)
    have hname := substitute_word_append env (t := ')' :: parenthesize env after) ho.isWord
      ho.ne_nil fun c hc => by cases hc; exact hclose
    have happend := mapWords_append (f := replace env) happart
    simp only [← substitute_eq_mapWords] at happend
    rwa [substitute_cons env _ hopen, hname, substitute_cons env _ hclose,
      h.substitute_eq] at happend

end LineCalculator.Substitution
