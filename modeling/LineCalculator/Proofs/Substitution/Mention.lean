import LineCalculator.Proofs.Substitution.Rewriting
import LineCalculator.Proofs.Substitution.Trees
/-! # The names that an expression mentions

An expression is rewritten under its bound names first, and what is then left of lowercase words is
looked up again where it is read. The second way leads to no value: a variable of a derivation is a
whole word of the text, and of these the bound ones are gone.

* `WordIn word text`: a word stands in a text between characters that are none of a word.
* `wordIn_of_derives`: so does every variable of a derivation.
* `read_eq_ok_of_unbound`: a text without bound names has its value in every environment.
* `evaluate_eq_ok_iff_read_empty`: so has the text after substitution, without any bindings.
* `evaluate_eq_ok_congr`: only the names that an expression mentions matter to its value.
-/

namespace LineCalculator
set_option autoImplicit false
open Text

/-! ## Trees -/

namespace Expression
variable {v w : String → Float}

mutual
theorem SumTree.value_congr (e : SumTree) (h : ∀ a, .name a ∈ e.lexemes → v a = w a) :
    e.value v = e.value w := by
  cases e with
  | term t => exact t.value_congr h
  | add e s t =>
    simp only [SumTree.lexemes, List.mem_append, List.mem_cons] at h
    have he := e.value_congr fun a ha => h a (.inl ha)
    have ht := t.value_congr fun a ha => h a (.inr (.inr ha))
    simp only [SumTree.value, he, ht]
theorem TermTree.value_congr (t : TermTree) (h : ∀ a, .name a ∈ t.lexemes → v a = w a) :
    t.value v = t.value w := by
  cases t with
  | factor x => exact x.value_congr h
  | scale t o x =>
    simp only [TermTree.lexemes, List.mem_append, List.mem_cons] at h
    have ht := t.value_congr fun a ha => h a (.inl ha)
    have hx := x.value_congr fun a ha => h a (.inr (.inr ha))
    simp only [TermTree.value, ht, hx]
theorem FactorTree.value_congr (x : FactorTree) (h : ∀ a, .name a ∈ x.lexemes → v a = w a) :
    x.value v = x.value w := by
  cases x with
  | sign s x =>
    have hx := x.value_congr fun a ha => h a (List.mem_cons_of_mem _ ha)
    simp only [FactorTree.value, hx]
  | group e =>
    have he := e.value_congr fun a ha => h a (List.mem_cons_of_mem _ (List.mem_append_left _ ha))
    exact he
  | number n => rfl
  | name a =>
    have ha := h a List.mem_cons_self
    simp only [FactorTree.value, ha]
  | call f x =>
    have hx := x.value_congr fun a ha => h a (List.mem_cons_of_mem _ ha)
    simp only [FactorTree.value, hx]
end

variable {env : Environment} {text : List Char}

/-- Without variables a derivation is one in every environment, with one value. -/
theorem SumTree.Derives.read_eq_ok {e : SumTree} {y : Float} (h : e.Derives env text)
    (hnames : ∀ a, .name a ∉ e.lexemes) (hv : (e.value env.lookup).result = .ok y)
    (env' : Environment) : (read env' text).result = .ok y := by
  have hr : ∀ l ∈ e.lexemes, l.Resolved env' := by
    intro l hl
    cases l with
    | name a => exact absurd hl (hnames a)
    | mark c => trivial
    | numeral n => trivial
    | function f => trivial
  rw [read_eq_value h.tokenTexts_eq hr h.depth_le, Logged.result_mapError_eq_ok]
  rwa [e.value_congr fun a ha => absurd ha (hnames a)]

end Expression

/-! ## Words of a text -/

namespace Substitution
open Expression

/-- The word stands in the text, and neither before nor after it a word character does. -/
def WordIn (word text : List Char) : Prop :=
  word ≠ [] ∧ (∀ c ∈ word, isWord c = true) ∧
    ∃ before after, text = before ++ (word ++ after) ∧
      (∀ c ∈ before.getLast?, isWord c = false) ∧ ∀ c ∈ after.head?, isWord c = false

theorem WordIn.append_left {word text a : List Char} (h : WordIn word text)
    (ha : ∀ c ∈ a.getLast?, ∀ d ∈ word.head?, d ∈ text.head? → isWord c = false) :
    WordIn word (a ++ text) := by
  obtain ⟨hne, hw, before, after, rfl, hb, hafter⟩ := h
  refine ⟨hne, hw, a ++ before, after, by rw [List.append_assoc], fun c hc => ?_, hafter⟩
  cases before with
  | cons x before =>
    rw [List.getLast?_append_of_ne_nil _ (List.cons_ne_nil x before)] at hc
    exact hb c hc
  | nil =>
    rw [List.append_nil] at hc
    obtain ⟨d, more, rfl⟩ := List.exists_cons_of_ne_nil hne
    exact ha c hc d rfl rfl

theorem wordIn_iff {word text : List Char} :
    WordIn word text ↔ ∃ r ∈ words text, r.text = word ∧ isWord r.first = true := by
  constructor
  · rintro ⟨hne, hw, before, after, rfl, hb, ha⟩
    obtain ⟨c, more, rfl⟩ := List.exists_cons_of_ne_nil hne
    have hleft : Apart wordKind before (c :: more ++ after) :=
      Apart.of_left _ fun x hx => wordKind_of_not_isWord (hb x hx)
    have hright : Apart wordKind (c :: more) after :=
      Apart.of_right _ fun x hx => wordKind_of_not_isWord (ha x hx)
    refine ⟨⟨c, more⟩, ?_, rfl, hw c List.mem_cons_self⟩
    rw [words, runs_append hleft, runs_append hright,
      runs_of_forall fun x hx => wordKind_of_isWord (hw x hx)]
    simp
  · rintro ⟨r, hr, rfl, hw⟩
    induction text using cut_induction wordKind with
    | nil => cases hr
    | run r' rest hu ha ih =>
      rw [words, runs_text_append hu ha] at hr
      rcases List.mem_cons.1 hr with rfl | hr
      · have hnil : ∀ c ∈ ([] : List Char).getLast?, isWord c = false := by
          intro c hc
          cases hc
        exact ⟨r.text_ne_nil, isWord_of_mem_text hu hw, [], rest, rfl, hnil,
          isWord_head?_of_apart hu hw ha⟩
      · refine (ih hr).append_left fun c hc d hd hhead => ?_
        cases hd
        have hw' : isWord r'.first = false := by
          apply Bool.eq_false_iff.2
          intro hw'
          have hn := isWord_head?_of_apart hu hw' ha r.first hhead
          rw [hw] at hn
          cases hn
        rw [text_eq_of_not_isWord hu hw'] at hc
        cases hc
        exact hw'

instance decidableWordIn (word text : List Char) : Decidable (WordIn word text) :=
  decidable_of_iff' _ wordIn_iff

variable {env : Environment} {text : List Char}

theorem Unbound.contains_eq_false {a : String} (h : Unbound env text)
    (ha : WordIn a.toList text) : env.contains a = false := by
  obtain ⟨r, hr, hra, -⟩ := wordIn_iff.1 ha
  have hb := h r hr
  rwa [hra, String.ofList_toList] at hb

/-! ## Variables of a derivation -/

theorem lexeme_text_ne_nil {l : Lexeme} (hp : l.Proper) (hr : l.Resolved env) : l.text ≠ [] := by
  obtain ⟨r, h, -⟩ := l.isWord hp hr
  rw [← h]
  exact r.text_ne_nil

section Row
variable {ls : List Lexeme} (hproper : ∀ l ∈ ls, l.Proper) (hr : ∀ l ∈ ls, l.Resolved env)
include hproper hr

theorem isWord_head?_of_isMark (h : Spells tokenKind (ls.map Lexeme.text) text)
    (hm : ∀ l ∈ ls.head?, l.IsMark) : ∀ c ∈ text.head?, isWord c = false := by
  intro c hc
  have hne : ∀ w ∈ ls.map Lexeme.text, w ≠ [] := by
    intro w hw
    obtain ⟨l, hl, rfl⟩ := List.mem_map.1 hw
    exact lexeme_text_ne_nil (hproper l hl) (hr l hl)
  rcases h.head? hne hc with rfl | ⟨w, hw, hcw⟩
  · exact isWord_space
  · rw [List.head?_map] at hw
    obtain ⟨l, hl, rfl⟩ := Option.map_eq_some_iff.1 hw
    have hml := hm l hl
    have hpl := hproper l (List.mem_of_mem_head? hl)
    cases l with
    | mark d =>
      cases hcw
      exact (separates_of_mark hpl).1
    | numeral n => cases hml
    | name a => cases hml
    | function f => cases hml

end Row

/-- Before a variable there is no word character: a number or a variable would need an operator
between, and the name of a function would run together with it. -/
theorem isWord_getLast?_lexeme {l : Lexeme} {rest : List Char} {c d : Char} (hp : l.Proper)
    (hmark : (∀ m : Lexeme, l.MayPrecede m → m.IsMark) → isWord d = false)
    (hmax : Apart tokenKind l.text rest) (hd : d ∈ rest.head?) (hlower : d.isLower = true)
    (hc : c ∈ l.text.getLast?) : isWord c = false := by
  have hword : isWord d = true := isWord_of_isAlpha (isAlpha_of_isLower hlower)
  cases l with
  | mark x =>
    cases hc
    exact (separates_of_mark hp).1
  | numeral n =>
    rw [hmark fun m hm => hm] at hword
    cases hword
  | name a =>
    rw [hmark fun m hm => hm] at hword
    cases hword
  | function f =>
    have hkc := tokenKind_of_isLower (isLower_of_mem_name f c (List.mem_of_getLast? hc))
    rcases hmax c hc d hd with hn | hn
    · rw [hkc] at hn
      cases hn
    · exact absurd (hkc.trans (tokenKind_of_isLower hlower).symm) hn

theorem wordIn_of_spells {ls : List Lexeme} {a : String}
    (h : Spells tokenKind (ls.map Lexeme.text) text) (hchain : ls.IsChain Lexeme.MayPrecede)
    (hproper : ∀ l ∈ ls, l.Proper) (hr : ∀ l ∈ ls, l.Resolved env) (ha : .name a ∈ ls) :
    WordIn a.toList text := by
  induction ls generalizing text with
  | nil => cases ha
  | cons l ls ih =>
    cases h with
    | @word n _ _ rest hrest hmax =>
      obtain ⟨hnext, hchain⟩ := List.isChain_cons.1 hchain
      obtain ⟨hpl, hpls⟩ := List.forall_mem_cons.1 hproper
      obtain ⟨hrl, hrls⟩ := List.forall_mem_cons.1 hr
      rcases List.mem_cons.1 ha with rfl | ha
      · obtain ⟨hlower, -, hb⟩ := hrl
        refine ⟨(Environment.isName_of_contains hb).1,
          fun c hc => isWord_of_isAlpha (isAlpha_of_isLower (hlower c hc)),
          List.replicate n ' ', rest, rfl, fun c hc => ?_,
          isWord_head?_of_isMark hpls hrls hrest hnext⟩
        rw [List.eq_of_mem_replicate (List.mem_of_getLast? hc)]
        exact isWord_space
      · have hlower := (hrls _ ha).1
        rw [← List.append_assoc]
        refine (ih hrest hchain hpls hrls ha).append_left fun c hc d hd hhead => ?_
        rw [List.getLast?_append_of_ne_nil _ (lexeme_text_ne_nil hpl hrl)] at hc
        refine isWord_getLast?_lexeme hpl (fun hm => ?_) hmax hhead
          (hlower d (List.mem_of_mem_head? hd)) hc
        exact isWord_head?_of_isMark hpls hrls hrest (fun m hml => hm m (hnext m hml)) d hhead

theorem wordIn_of_derives {e : SumTree} {a : String} (h : e.Derives env text)
    (ha : .name a ∈ e.lexemes) : WordIn a.toList text :=
  wordIn_of_spells h.spelled e.isChain_lexemes e.proper_lexemes h.resolved ha

theorem Unbound.name_not_mem_lexemes {e : SumTree} (h : Unbound env text) (he : e.Derives env text)
    (a : String) : .name a ∉ e.lexemes := by
  intro ha
  have hb := (he.resolved _ ha).2.2
  rw [h.contains_eq_false (wordIn_of_derives he ha)] at hb
  cases hb

theorem read_eq_ok_of_unbound {y : Float} (h : Unbound env text)
    (hv : (read env text).result = .ok y) (env' : Environment) :
    (read env' text).result = .ok y := by
  obtain ⟨e, he, hy⟩ := exists_derives_of_read hv
  exact he.read_eq_ok (h.name_not_mem_lexemes he) hy env'

/-! ## The names that are left for the reader -/

theorem unbound_empty (text : List Char) : Unbound .empty text := fun _ _ => rfl

/-- The reader needs no bindings for the text after substitution: names that it would look up are
in no derivation of it. -/
theorem evaluate_eq_ok_iff_read_empty [PatternCompiler] (env : Environment) (expression : String) :
    (∀ y, (evaluate env expression).result = .ok y ↔
      ∃ text, (search env expression.toList).result = .ok text ∧
        (read .empty text).result = .ok y) ∧
    ∀ text, (search env expression.toList).result = .ok text →
      ∀ e : SumTree, e.Derives env text → ∀ a, .name a ∉ e.lexemes := by
  have hunbound := unbound_substitute env expression.toList
  simp only [search_eq_ok_iff]
  refine ⟨fun y => ?_, ?_⟩
  · rw [evaluate_eq_ok_iff]
    constructor
    · rintro ⟨hs, h⟩
      exact ⟨_, ⟨hs, rfl⟩, read_eq_ok_of_unbound hunbound h .empty⟩
    · rintro ⟨_, ⟨hs, rfl⟩, h⟩
      exact ⟨hs, read_eq_ok_of_unbound (unbound_empty _) h env⟩
  · rintro _ ⟨-, rfl⟩ e he
    exact hunbound.name_not_mem_lexemes he

/-! ## Environments that agree -/

/-- The environments agree on every name that stands in the text as a whole word. -/
def AgreeOn (env₁ env₂ : Environment) (text : List Char) : Prop :=
  ∀ name : String, WordIn name.toList text → env₁.get? name = env₂.get? name

theorem AgreeOn.symm {env₁ env₂ : Environment} (h : AgreeOn env₁ env₂ text) :
    AgreeOn env₂ env₁ text :=
  fun name hn => (h name hn).symm

theorem agreeOn_iff {env₁ env₂ : Environment} : AgreeOn env₁ env₂ text ↔
    ∀ r ∈ words text, env₁.get? (String.ofList r.text) = env₂.get? (String.ofList r.text) := by
  constructor
  · intro h r hr
    by_cases hw : isWord r.first = true
    · apply h
      rw [String.toList_ofList]
      exact wordIn_iff.2 ⟨r, hr, rfl, hw⟩
    · have ha := isAlpha_eq_false_of_not_isWord (Bool.eq_false_iff.2 hw)
      have hn : ¬ IsName (String.ofList r.text) := not_isName_of_mem List.mem_cons_self ha
      rw [Environment.get?_eq_none_of_not_isName hn, Environment.get?_eq_none_of_not_isName hn]
  · intro h name hname
    obtain ⟨r, hr, hrn, -⟩ := wordIn_iff.1 hname
    have he := h r hr
    rwa [hrn, String.ofList_toList] at he

instance decidableAgreeOn (env₁ env₂ : Environment) (text : List Char) :
    Decidable (AgreeOn env₁ env₂ text) :=
  decidable_of_iff' _ agreeOn_iff

theorem AgreeOn.substitute_eq {env₁ env₂ : Environment} (h : AgreeOn env₁ env₂ text) :
    substitute env₁ text = substitute env₂ text :=
  List.flatMap_congr fun r hr => by rw [replace, replace, agreeOn_iff.1 h r hr]

theorem AgreeOn.evaluate_eq_ok [PatternCompiler] {env₁ env₂ : Environment} {expression : String}
    {y : Float} (h : AgreeOn env₁ env₂ expression.toList) (hs : Searchable env₂)
    (hv : (evaluate env₁ expression).result = .ok y) :
    (evaluate env₂ expression).result = .ok y := by
  rw [evaluate_eq_ok_iff] at hv ⊢
  rw [← h.substitute_eq]
  exact ⟨hs, read_eq_ok_of_unbound (unbound_substitute env₁ expression.toList) hv.2 env₂⟩

end Substitution

end LineCalculator
