import LineCalculator.Proofs.Substitution.Compiled
/-! # Substitution as a leftmost-first search

A text has just one cut into maximal runs of word characters and single other characters, and
substitution rewrites the pieces of this cut that are bound names. A backtracking search for the
names between word boundaries finds the same pieces, in whatever order it tries the names.

* `IsCut pieces text`: the cut, in terms of the characters of its pieces.
* `isCut_words`, `IsCut.eq_words`: there is just one.
* `Pattern`, `Pattern.ends`: the places where a match may end, the preferred ones first.
* `Pattern.replaceAll`: every match of a search from left to right is rewritten.
* `wholeWord names`: any of the names between word boundaries.
* `first?_wholeWord`, `replaceAll_wholeWord`: what is found at one place, and in a whole text.
* `search_cut_and_replace`: the two ways to say what substitution does.
-/

namespace LineCalculator.Substitution
set_option autoImplicit false
open Text

/-! ## The cut of a text -/

def IsWordRun (w : List Char) : Prop := w ≠ [] ∧ ∀ c ∈ w, isWord c = true

/-- The pieces make up the text. Each is a run of word characters or another character alone, and
no two runs stand side by side. -/
structure IsCut (pieces : List (List Char)) (text : List Char) : Prop where
  flatten : pieces.flatten = text
  piece : ∀ w ∈ pieces, IsWordRun w ∨ ∃ c, w = [c] ∧ isWord c = false
  maximal : pieces.IsChain fun w v => ¬ (IsWordRun w ∧ IsWordRun v)

theorem isCut_nil : IsCut [] [] := ⟨rfl, by simp, .nil⟩

theorem isWordRun_text {r : Run} (hu : r.Uniform wordKind) (hc : isWord r.first = true) :
    IsWordRun r.text :=
  ⟨r.text_ne_nil, isWord_of_mem_text hu hc⟩

theorem words_append_of_apart {r : Run} {rest : List Char} (hu : r.Uniform wordKind)
    (ha : Apart wordKind r.text rest) : words (r.text ++ rest) = r :: words rest :=
  runs_text_append hu ha

theorem isCut_words (text : List Char) : IsCut ((words text).map Run.text) text := by
  induction text using cut_induction wordKind with
  | nil => exact isCut_nil
  | run r rest hu ha ih =>
    rw [words_append_of_apart hu ha, List.map_cons]
    refine ⟨?_, ?_, ?_⟩
    · rw [List.flatten_cons, ih.flatten]
    · refine List.forall_mem_cons.2 ⟨?_, ih.piece⟩
      cases hc : isWord r.first with
      | true => exact .inl (isWordRun_text hu hc)
      | false => exact .inr ⟨r.first, text_eq_of_not_isWord hu hc, hc⟩
    · refine List.isChain_cons.2 ⟨?_, ih.maximal⟩
      rintro v hv ⟨hr, hrun⟩
      have hc : isWord r.first = true := hr.2 r.first List.mem_cons_self
      obtain ⟨d, more, rfl⟩ := List.exists_cons_of_ne_nil hrun.1
      have hhead : d ∈ rest.head? := by
        rw [← ih.flatten]
        cases hps : (words rest).map Run.text with
        | nil =>
          rw [hps] at hv
          cases hv
        | cons w ps =>
          rw [hps] at hv
          cases hv
          rfl
      have hd := isWord_head?_of_apart hu hc ha d hhead
      rw [hrun.2 d List.mem_cons_self] at hd
      cases hd

theorem IsCut.eq_words {pieces : List (List Char)} {text : List Char} (h : IsCut pieces text) :
    pieces = (words text).map Run.text := by
  induction pieces generalizing text with
  | nil =>
    rw [← h.flatten]
    rfl
  | cons w ps ih =>
    obtain ⟨hchain, hmore⟩ := List.isChain_cons.1 h.maximal
    obtain ⟨hw, hps⟩ := List.forall_mem_cons.1 h.piece
    have htail := ih ⟨rfl, hps, hmore⟩
    have htext : text = w ++ ps.flatten := h.flatten.symm
    rcases hw with hrun | ⟨c, rfl, hc⟩
    · have hhead : ∀ c ∈ ps.flatten.head?, isWord c = false := by
        cases ps with
        | nil =>
          intro c hc
          cases hc
        | cons v vs =>
          rcases (List.forall_mem_cons.1 hps).1 with hv | ⟨d, rfl, hd⟩
          · exact absurd ⟨hrun, hv⟩ (hchain v rfl)
          · intro c hc
            cases hc
            exact hd
      obtain ⟨c, more, rfl⟩ := List.exists_cons_of_ne_nil hrun.1
      have hu : (Run.mk c more).Uniform wordKind :=
        .inl ⟨(), fun x hx => wordKind_of_isWord (hrun.2 x hx)⟩
      have ha : Apart wordKind (Run.mk c more).text ps.flatten :=
        Apart.of_right _ fun d hd => wordKind_of_not_isWord (hhead d hd)
      have hwords : words text = ⟨c, more⟩ :: words ps.flatten := by
        rw [htext]
        exact words_append_of_apart hu ha
      rw [hwords, List.map_cons, ← htail]
      rfl
    · have hwords : words text = ⟨c, []⟩ :: words ps.flatten := by
        rw [htext]
        exact runs_cons_of_none _ (wordKind_of_not_isWord hc)
      rw [hwords, List.map_cons, ← htail]
      rfl

/-! ## Patterns -/

/-- What a search looks for: a character, a word boundary, one thing or else another, and one thing
and then another. -/
inductive Pattern where
  | nothing
  | char (c : Char)
  | boundary
  | either (p q : Pattern)
  | next (p q : Pattern)
deriving DecidableEq, Repr

namespace Pattern

/-- A place in a text: the character before it, and what is left. -/
abbrev Place : Type := Option Char × List Char

/-- Where a match that begins at a place may end, in the order in which they are tried: all that
the first of two alternatives gives before what the second one gives. -/
def ends : Pattern → Place → List Place
  | nothing, s => [s]
  | char _, (_, []) => []
  | char c, (_, d :: text) => if d = c then [(some d, text)] else []
  | boundary, s => if isBoundary s.1 s.2.head? then [s] else []
  | either p q, s => p.ends s ++ q.ends s
  | next p q, s => (p.ends s).flatMap q.ends

/-- Where the preferred match at a place ends. -/
def first? (p : Pattern) (s : Place) : Option Place := (p.ends s).head?

/-- The text with every match rewritten, the search going on where a match ended. After a match of
no character it goes on behind the next character, and right behind a match such a match counts for
nothing. -/
def replaceAll (p : Pattern) (f : List Char → List Char) (afterMatch : Bool) (before : Option Char)
    (text : List Char) : List Char :=
  match p.first? (before, text) with
  | some s =>
    if s.2.length < text.length then
      f (text.take (text.length - s.2.length)) ++ p.replaceAll f true s.1 s.2
    else
      (if afterMatch then [] else f []) ++
        match text with
        | [] => []
        | c :: more => c :: p.replaceAll f false (some c) more
  | none =>
    match text with
    | [] => []
    | c :: more => c :: p.replaceAll f false (some c) more
termination_by text.length

/-- One character after the other. -/
def literal : List Char → Pattern
  | [] => nothing
  | c :: w => next (char c) (literal w)

/-- The first of the words that fits. -/
def anyOf : List (List Char) → Pattern
  | [] => nothing
  | [w] => literal w
  | w :: v :: ws => either (literal w) (anyOf (v :: ws))

end Pattern

open Pattern (Place)

/-- Any of the names, a word boundary before and after it. -/
def wholeWord (names : List (List Char)) : Pattern :=
  .next .boundary (.next (.anyOf names) .boundary)

/-! ## What is found at a place -/

theorem ends_literal (w : List Char) (before : Option Char) (text : List Char) :
    (Pattern.literal w).ends (before, text) =
      if w.isPrefixOf text then [(w.getLast?.or before, text.drop w.length)] else [] := by
  induction w generalizing before text with
  | nil => rfl
  | cons c w ih =>
    cases text with
    | nil => rfl
    | cons d text =>
      rw [Pattern.literal, Pattern.ends, Pattern.ends]
      by_cases hd : d = c
      · subst hd
        have hlast : w.getLast?.or (some d) = (d :: w).getLast?.or before := by
          rw [List.getLast?_cons]
          cases w.getLast? <;> rfl
        rw [if_pos rfl, List.flatMap_singleton, ih, hlast, List.isPrefixOf_cons_cons_self]
        rfl
      · have hprefix : (c :: w).isPrefixOf (d :: text) = false := by
          rw [List.isPrefixOf, beq_false_of_ne (Ne.symm hd), Bool.false_and]
        rw [if_neg hd, hprefix]
        rfl

theorem ends_anyOf {names : List (List Char)} (hne : names ≠ []) (s : Place) :
    (Pattern.anyOf names).ends s = names.flatMap fun n => (Pattern.literal n).ends s := by
  induction names with
  | nil => exact absurd rfl hne
  | cons n names ih =>
    cases names with
    | nil =>
      rw [List.flatMap_singleton]
      rfl
    | cons m names =>
      rw [Pattern.anyOf, Pattern.ends, ih (List.cons_ne_nil m names)]
      rfl

/-- Between two boundaries a name is found where it is one of the words of the text. -/
theorem ends_literal_boundary {n : List Char} (hn : n ≠ []) {before : Option Char}
    {text : List Char} (hb : isBoundary before text.head? = true) :
    ((Pattern.literal n).ends (before, text)).flatMap Pattern.boundary.ends =
      if isMatch before text n then [(n.getLast?, text.drop n.length)] else [] := by
  have hlast : n.getLast?.or before = n.getLast? := by
    rw [List.getLast?_eq_some_getLast hn]
    rfl
  rw [ends_literal, hlast, isMatch, hb, Bool.and_true]
  cases n.isPrefixOf text with
  | false => rfl
  | true =>
    rw [if_pos rfl, List.flatMap_singleton]
    rfl

theorem head?_flatMap_ite {α β : Type} (q : α → Bool) (g : α → β) (l : List α) :
    (l.flatMap fun a => if q a then [g a] else []).head? = (l.find? q).map g := by
  induction l with
  | nil => rfl
  | cons a l ih =>
    rw [List.flatMap_cons]
    cases h : q a with
    | true =>
      rw [List.find?_cons_of_pos h]
      rfl
    | false =>
      rw [List.find?_cons_of_neg (Bool.eq_false_iff.1 h), ← ih]
      rfl

section
variable {names : List (List Char)} (hne : names ≠ []) (hnames : AreWords names)
include hne hnames

theorem first?_wholeWord (before : Option Char) (text : List Char) :
    (wholeWord names).first? (before, text) =
      (matchAt? names before text).map fun n => (n.getLast?, text.drop n.length) := by
  rw [Pattern.first?, wholeWord, Pattern.ends, Pattern.ends]
  by_cases hb : isBoundary before text.head? = true
  · rw [if_pos hb, List.flatMap_singleton, Pattern.ends, ends_anyOf hne, List.flatMap_assoc]
    rw [List.flatMap_congr fun n hn => ends_literal_boundary (hnames n hn).1 hb]
    exact head?_flatMap_ite _ _ names
  · have hnone : matchAt? names before text = none := by
      refine List.find?_eq_none.2 fun n _ h => ?_
      exact hb (isMatch_iff.1 h).2.1
    rw [if_neg hb, hnone]
    rfl

/-- The search for all names at once rewrites the matches of the alternation. -/
theorem replaceAll_wholeWord (f : List Char → List Char) (afterMatch : Bool)
    (before : Option Char) (text : List Char) :
    (wholeWord names).replaceAll f afterMatch before text = rewriteMatches f names before text := by
  induction hlen : text.length using Nat.strongRecOn generalizing afterMatch before text with
  | ind k ih =>
    rw [Pattern.replaceAll.eq_def, first?_wholeWord hne hnames]
    cases text with
    | nil =>
      have hnone : matchAt? names before [] = none := by
        refine List.find?_eq_none.2 fun n hn h => ?_
        exact (hnames n hn).1 (List.prefix_nil.1 (isMatch_iff.1 h).1)
      rw [hnone, rewriteMatches]
      rfl
    | cons c text =>
      rw [rewriteMatches]
      cases hmatch : matchAt? names before (c :: text) with
      | none =>
        have hmore := ih text.length (hlen ▸ Nat.lt_succ_self _) false (some c) text rfl
        dsimp only [Option.map_none]
        rw [hmore]
      | some n =>
        obtain ⟨rest, hrest⟩ := (isMatch_iff.1 (List.find?_some hmatch)).1
        obtain ⟨d, more, rfl⟩ :=
          List.exists_cons_of_ne_nil (hnames n (List.mem_of_find?_eq_some hmatch)).1
        rw [List.cons_append] at hrest
        obtain ⟨rfl, rfl⟩ := List.cons.inj hrest
        have hlen' : (d :: (more ++ rest)).length - rest.length = (d :: more).length := by
          rw [List.length_cons, List.length_cons, List.length_append]
          omega
        have hlt : rest.length < (d :: (more ++ rest)).length := by
          rw [List.length_cons, List.length_append]
          omega
        have hdrop : (d :: (more ++ rest)).drop (d :: more).length = rest := List.drop_left
        have hdrop' : (more ++ rest).drop ((d :: more).length - 1) = rest := List.drop_left
        have htake : (d :: (more ++ rest)).take (d :: more).length = d :: more := List.take_left
        dsimp only [Option.map_some]
        rw [hdrop, hdrop', if_pos hlt, hlen', htake,
          ih rest.length (hlen ▸ hlt) true (d :: more).getLast? rest rfl]

end

/-! ## Substitution -/

theorem replaceAll_boundNames {env : Environment} {names : List (List Char)} (hne : names ≠ [])
    (hperm : names.Perm (env.bindings.map fun b => b.1.toList)) (text : List Char) :
    (wholeWord names).replaceAll (replace env) false none text = substitute env text := by
  have hwords : AreWords names := fun n hn => areWords_of_isName env.named n (hperm.mem_iff.1 hn)
  rw [replaceAll_wholeWord hne hwords, rewriteMatches_boundNames env text hperm]

end LineCalculator.Substitution
