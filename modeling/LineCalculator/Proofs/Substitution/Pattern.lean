import LineCalculator.Proofs.Substitution.Rewriting
/-! # Names found by a pattern

Bound names can be looked for with a pattern, which is an alternation of names between two word
boundaries. A text is searched for it from left to right; of several names that fit at one place
the first of the alternation is taken, and the search goes on behind it.

* `matchAt? names before text`: the name that the pattern finds at the beginning of a text.
* `rewriteMatches f names before text`: every match of the pattern is rewritten.
* `rewriteMatches_eq`: whatever the order of the names, the words that are among them are rewritten.
* `substituteMatches`, `substituteMatchesEach`: one search for all bound names, and one for each.
* `substituteMatches_eq`, `substituteMatchesEach_eq`, `substituteEach_eq`: all give one text.
-/

namespace LineCalculator.Substitution
set_option autoImplicit false
open Text

/-! ## Matches -/

/-- Whether a word begins or ends between two neighbours. The ends of a text have none. -/
def isBoundary (before after : Option Char) : Bool := before.any isWord != after.any isWord

/-- Whether a name stands at the beginning of the text, with a word boundary before and after. -/
def isMatch (before : Option Char) (text name : List Char) : Bool :=
  name.isPrefixOf text && isBoundary before text.head? &&
    isBoundary name.getLast? (text.drop name.length).head?

def matchAt? (names : List (List Char)) (before : Option Char) (text : List Char) :
    Option (List Char) :=
  names.find? (isMatch before text)

/-- The text, which follows the character `before`, with every match rewritten. No name is empty,
so every match takes the first character of the text. -/
def rewriteMatches (f : List Char → List Char) (names : List (List Char)) :
    Option Char → List Char → List Char
  | _, [] => []
  | before, c :: text =>
    match matchAt? names before (c :: text) with
    | some n => f n ++ rewriteMatches f names n.getLast? (text.drop (n.length - 1))
    | none => c :: rewriteMatches f names (some c) text
termination_by _ text => text.length

/-! ## Matches are words -/

def AreWords (names : List (List Char)) : Prop :=
  ∀ n ∈ names, n ≠ [] ∧ ∀ c ∈ n, isWord c = true

theorem any_isWord_eq_false {o : Option Char} (h : ∀ c ∈ o, isWord c = false) :
    o.any isWord = false := by
  cases o with
  | none => rfl
  | some c => exact h c rfl

theorem isMatch_iff {before : Option Char} {text name : List Char} :
    isMatch before text name = true ↔ name <+: text ∧ isBoundary before text.head? = true ∧
      isBoundary name.getLast? (text.drop name.length).head? = true := by
  rw [isMatch, Bool.and_eq_true, Bool.and_eq_true, List.isPrefixOf_iff_prefix, and_assoc]

/-- Of all words only the one that the text begins with is at its beginning, between boundaries. -/
theorem isMatch_word_iff {w rest n : List Char} {before : Option Char}
    (hw : ∀ c ∈ w, isWord c = true) (hne : w ≠ []) (hrest : ∀ c ∈ rest.head?, isWord c = false)
    (hbefore : ∀ c ∈ before, isWord c = false) (hn : ∀ c ∈ n, isWord c = true) (hn0 : n ≠ []) :
    isMatch before (w ++ rest) n = true ↔ n = w := by
  have hlast : n.getLast?.any isWord = true := by
    rw [List.getLast?_eq_some_getLast hn0]
    exact hn _ (List.getLast_mem hn0)
  rw [isMatch_iff]
  constructor
  · rintro ⟨hp, -, hb⟩
    rw [isBoundary, hlast] at hb
    rcases List.prefix_or_prefix_of_prefix hp (List.prefix_append w rest) with ⟨k, rfl⟩ | ⟨k, rfl⟩
    · cases k with
      | nil => exact (List.append_nil n).symm
      | cons c k =>
        have hc := hw c (by simp)
        rw [List.append_assoc, List.drop_left, List.cons_append, List.head?_cons, Option.any_some,
          hc] at hb
        cases hb
    · cases k with
      | nil => exact List.append_nil w
      | cons c k =>
        obtain ⟨t, ht⟩ := (List.prefix_append_right_inj w).1 hp
        have hc := hrest c (by rw [← ht]; rfl)
        rw [hn c (by simp)] at hc
        cases hc
  · rintro rfl
    obtain ⟨c, more, rfl⟩ := List.exists_cons_of_ne_nil hne
    refine ⟨List.prefix_append _ rest, ?_, ?_⟩
    · rw [isBoundary, any_isWord_eq_false hbefore, List.cons_append, List.head?_cons,
        Option.any_some, hw c List.mem_cons_self]
      rfl
    · rw [isBoundary, hlast, List.drop_left, any_isWord_eq_false hrest]
      rfl

section Match
variable {names : List (List Char)} (hnames : AreWords names)

include hnames in
theorem matchAt?_word {w rest : List Char} {before : Option Char}
    (hw : ∀ c ∈ w, isWord c = true) (hne : w ≠ []) (hrest : ∀ c ∈ rest.head?, isWord c = false)
    (hbefore : ∀ c ∈ before, isWord c = false) :
    matchAt? names before (w ++ rest) = if w ∈ names then some w else none := by
  have hiff : ∀ n ∈ names, _ := fun n hn =>
    isMatch_word_iff (n := n) hw hne hrest hbefore (hnames n hn).2 (hnames n hn).1
  split
  · rename_i hmem
    cases h : matchAt? names before (w ++ rest) with
    | none => exact absurd ((hiff w hmem).2 rfl) (by simpa using List.find?_eq_none.1 h w hmem)
    | some n =>
      have hn : isMatch before (w ++ rest) n = true := List.find?_some h
      rw [(hiff n (List.mem_of_find?_eq_some h)).1 hn]
  · rename_i hmem
    refine List.find?_eq_none.2 fun n hn h => hmem ?_
    rwa [← (hiff n hn).1 h]

include hnames in
theorem matchAt?_of_not_isWord {c : Char} (before : Option Char) (t : List Char)
    (hc : isWord c = false) : matchAt? names before (c :: t) = none := by
  refine List.find?_eq_none.2 fun n hn h => ?_
  obtain ⟨hp, -, -⟩ := isMatch_iff.1 h
  obtain ⟨hne, hword⟩ := hnames n hn
  obtain ⟨d, more, rfl⟩ := List.exists_cons_of_ne_nil hne
  have hd := hword d List.mem_cons_self
  rw [(List.cons_prefix_cons.1 hp).1, hc] at hd
  cases hd

/-- There is no boundary inside a word. -/
theorem matchAt?_inside {p c : Char} (t : List Char) (hp : isWord p = true)
    (hc : isWord c = true) : matchAt? names (some p) (c :: t) = none := by
  refine List.find?_eq_none.2 fun n _ h => ?_
  obtain ⟨-, hb, -⟩ := isMatch_iff.1 h
  rw [List.head?_cons, isBoundary, Option.any_some, Option.any_some, hp, hc] at hb
  cases hb

end Match

/-! ## Rewriting matches -/

variable {f : List Char → List Char} {names : List (List Char)}

theorem rewriteMatches_cons_none {before : Option Char} {c : Char} {t : List Char}
    (h : matchAt? names before (c :: t) = none) :
    rewriteMatches f names before (c :: t) = c :: rewriteMatches f names (some c) t := by
  rw [rewriteMatches, h]

theorem rewriteMatches_inside {p : Char} {w : List Char} (rest : List Char)
    (hp : isWord p = true) (hw : ∀ c ∈ w, isWord c = true) :
    ∃ q, rewriteMatches f names (some p) (w ++ rest) =
      w ++ rewriteMatches f names (some q) rest := by
  induction w generalizing p with
  | nil => exact ⟨p, rfl⟩
  | cons c w ih =>
    obtain ⟨hc, hw⟩ := List.forall_mem_cons.1 hw
    obtain ⟨q, hq⟩ := ih hc hw
    refine ⟨q, ?_⟩
    rw [List.cons_append, rewriteMatches_cons_none (matchAt?_inside _ hp hc), hq]
    rfl

theorem rewriteMatches_word_append (hnames : AreWords names) {w rest : List Char}
    {before : Option Char} (hw : ∀ c ∈ w, isWord c = true) (hne : w ≠ [])
    (hrest : ∀ c ∈ rest.head?, isWord c = false) (hbefore : ∀ c ∈ before, isWord c = false) :
    ∃ q, rewriteMatches f names before (w ++ rest) =
      (if w ∈ names then f w else w) ++ rewriteMatches f names q rest := by
  have hmatch := matchAt?_word hnames hw hne hrest hbefore
  obtain ⟨c, more, rfl⟩ := List.exists_cons_of_ne_nil hne
  obtain ⟨hc, hmore⟩ := List.forall_mem_cons.1 hw
  rw [List.cons_append] at hmatch ⊢
  split at hmatch
  · rename_i hmem
    refine ⟨(c :: more).getLast?, ?_⟩
    rw [rewriteMatches, hmatch, if_pos hmem]
    simp only [List.length_cons, Nat.add_sub_cancel, List.drop_left]
  · rename_i hmem
    obtain ⟨q, hq⟩ : ∃ q, rewriteMatches f names (some c) (more ++ rest) =
        more ++ rewriteMatches f names (some q) rest := rewriteMatches_inside rest hc hmore
    refine ⟨some q, ?_⟩
    rw [rewriteMatches_cons_none hmatch, hq, if_neg hmem]
    rfl

theorem rewriteMatches_eq (hnames : AreWords names) (text : List Char) (before : Option Char)
    (h : (∀ c ∈ before, isWord c = false) ∨ ∀ c ∈ text.head?, isWord c = false) :
    rewriteMatches f names before text = mapWords (fun w => if w ∈ names then f w else w) text := by
  induction text using cut_induction wordKind generalizing before with
  | nil => rw [rewriteMatches]; rfl
  | run r rest hu ha ih =>
    by_cases hc : isWord r.first = true
    · have hword := isWord_of_mem_text hu hc
      have hrest := isWord_head?_of_apart hu hc ha
      have hbefore : ∀ x ∈ before, isWord x = false := by
        refine h.resolve_right fun hhead => ?_
        have hf := hhead r.first rfl
        rw [hc] at hf
        cases hf
      obtain ⟨q, hq⟩ : ∃ q, rewriteMatches f names before (r.text ++ rest) =
          (if r.text ∈ names then f r.text else r.text) ++ rewriteMatches f names q rest :=
        rewriteMatches_word_append hnames hword r.text_ne_nil hrest hbefore
      rw [hq, ih q (.inr hrest), mapWords_word_append hword r.text_ne_nil hrest]
    · have hc := Bool.eq_false_iff.2 hc
      have hmem : ¬ [r.first] ∈ names := by
        intro hmem
        have hw := (hnames _ hmem).2 r.first List.mem_cons_self
        rw [hc] at hw
        cases hw
      have hafter : ∀ x ∈ some r.first, isWord x = false := by
        intro x hx
        cases hx
        exact hc
      rw [text_eq_of_not_isWord hu hc, List.singleton_append, mapWords_cons rest hc, if_neg hmem,
        rewriteMatches_cons_none (matchAt?_of_not_isWord hnames before rest hc),
        ih (some r.first) (.inl hafter)]
      rfl

/-! ## Substitution by patterns -/

variable (env : Environment) (text : List Char)

theorem insertByLength_perm (b : Binding) (l : List Binding) :
    (insertByLength b l).Perm (b :: l) := by
  induction l with
  | nil => exact .refl _
  | cons a l ih =>
    rw [insertByLength]
    split
    · exact .refl _
    · exact (ih.cons a).trans (.swap b a l)

theorem longestFirst_perm : (longestFirst env).Perm env.bindings := by
  rw [longestFirst]
  induction env.bindings with
  | nil => exact .refl _
  | cons b l ih => exact (insertByLength_perm b _).trans (ih.cons b)

/-- One search for all bound names, longer names first in the alternation. -/
def substituteMatches : List Char :=
  rewriteMatches (replace env) ((longestFirst env).map fun b => b.1.toList) none text

/-- One search for each bound name, longer names first, in the text that the ones before it left. -/
def substituteMatchesEach : List Char :=
  (longestFirst env).foldl (fun t b => rewriteMatches (replace env) [b.1.toList] none t) text

theorem areWords_of_isName {l : List Binding} (hl : ∀ b ∈ l, IsName b.1) :
    AreWords (l.map fun b => b.1.toList) := by
  intro n hn
  obtain ⟨b, hb, rfl⟩ := List.mem_map.1 hn
  exact ⟨(hl b hb).1, fun c hc => isWord_of_isAlpha ((hl b hb).2 c hc)⟩

variable {env} in
theorem isName_of_mem_longestFirst {b : Binding} (hb : b ∈ longestFirst env) : IsName b.1 :=
  env.named b ((longestFirst_perm env).mem_iff.1 hb)

/-- In whatever order the bound names stand, the words that are among them are replaced. -/
theorem rewriteMatches_boundNames {names : List (List Char)}
    (h : names.Perm (env.bindings.map fun b => b.1.toList)) :
    rewriteMatches (replace env) names none text = substitute env text := by
  have hwords : AreWords names := fun n hn => areWords_of_isName env.named n (h.mem_iff.1 hn)
  rw [rewriteMatches_eq hwords text none (.inl nofun)]
  refine List.flatMap_congr fun r _ => ?_
  dsimp only
  split
  · rfl
  · rename_i hmem
    rw [replace]
    split
    · rename_i x hx
      have hb := Binding.exists_mem_of_find? hx
      refine absurd (h.mem_iff.2 (List.mem_map.2 ⟨_, hb, ?_⟩)) hmem
      exact String.toList_ofList
    · rfl

variable {env} in
theorem substitute_of_no_bindings (h : env.bindings = []) : substitute env text = text := by
  have hself : ∀ w, replace env w = w := by
    intro w
    rw [replace, Environment.get?, h]
    rfl
  rw [substitute, List.flatMap_congr fun r _ => hself r.text]
  exact flatten_words text

theorem substituteMatches_eq : substituteMatches env text = substitute env text :=
  rewriteMatches_boundNames env text ((longestFirst_perm env).map _)

variable {env} in
/-- The search for one bound name replaces the words that are this name. -/
theorem rewriteMatches_name {b : Binding} (hb : b ∈ env.bindings) :
    rewriteMatches (replace env) [b.1.toList] none text = substituteWord b.1 b.2 text := by
  have hwords : AreWords [b.1.toList] :=
    areWords_of_isName (List.forall_mem_singleton.2 (env.named b hb))
  have hvalue : replace env b.1.toList = render b.2 := by
    rw [replace, String.ofList_toList, Environment.get?,
      (Binding.find?_eq_some_iff env.pairwise_ne).2 hb]
  have hbefore : ∀ c ∈ (none : Option Char), isWord c = false := fun c hc =>
    absurd hc (Option.not_mem_none c)
  rw [rewriteMatches_eq hwords text none (.inl hbefore)]
  refine List.flatMap_congr fun r _ => ?_
  simp only [List.mem_singleton]
  by_cases h : r.text = b.1.toList
  · rw [if_pos h, if_pos h, h, hvalue]
  · rw [if_neg h, if_neg h]

theorem substituteMatchesEach_eq : substituteMatchesEach env text = substituteEach env text :=
  List.foldl_ext _ _ _ fun t _ hb => rewriteMatches_name t ((longestFirst_perm env).mem_iff.1 hb)

theorem substituteEach_eq : substituteEach env text = substitute env text := by
  have hnames : ∀ b ∈ longestFirst env, IsName b.1 := fun b hb => isName_of_mem_longestFirst hb
  have h := foldl_substituteWord hnames text
  rwa [replaceIn_perm (longestFirst_perm env)] at h

end LineCalculator.Substitution
