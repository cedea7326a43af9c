import LineCalculator.Text.Word
/-! # Cutting a text at a boundary

`runs kind` cuts a text where the class of its characters changes, so it can be computed piece by
piece wherever two neighbouring characters do not run together.

* `Apart kind a b`: the last character of `a` and the first one of `b` do not run together.
* `Run.Uniform kind r`: the characters of `r` are all of one class, or `r` is a single character
  without a class.
* `runs_append`: the pieces of `a ++ b` are those of `a` and those of `b` when these are apart.
* `uniform_of_mem_runs`, `exists_of_runs_eq_cons`: every piece is uniform and apart from what
  follows it.
* `cut_induction`: induction on a text piece by piece.
-/

namespace LineCalculator.Text
set_option autoImplicit false

variable {κ : Type}

/-! ## Boundaries -/

/-- What holds of the characters of a text is decided on these, not on all characters. -/
instance (priority := high) decidableForallMem (p : Char → Prop) [DecidablePred p] (text : List Char) :
    Decidable (∀ c ∈ text, p c) :=
  List.decidableBAll p text

/-- The two texts do not run together where they meet. -/
def Apart (kind : Char → Option κ) (a b : List Char) : Prop :=
  ∀ x ∈ a.getLast?, ∀ y ∈ b.head?, kind x = none ∨ kind x ≠ kind y

instance decidableApart [DecidableEq κ] (kind : Char → Option κ) (a b : List Char) :
    Decidable (Apart kind a b) :=
  @Option.decidableForallMem _ _
    (fun x => @Option.decidableForallMem _ (fun y => kind x = none ∨ kind x ≠ kind y) inferInstance
      b.head?) a.getLast?

theorem Apart.nil_left (kind : Char → Option κ) (b : List Char) : Apart kind [] b := by
  intro x hx
  cases hx

theorem Apart.nil_right (kind : Char → Option κ) (a : List Char) : Apart kind a [] := by
  intro x _ y hy
  cases hy

theorem Apart.of_left {kind : Char → Option κ} {a : List Char} (b : List Char)
    (h : ∀ x ∈ a.getLast?, kind x = none) : Apart kind a b :=
  fun x hx _ _ => .inl (h x hx)

theorem Apart.of_right {kind : Char → Option κ} (a : List Char) {b : List Char}
    (h : ∀ y ∈ b.head?, kind y = none) : Apart kind a b := by
  intro x _ y hy
  by_cases hx : kind x = none
  · exact .inl hx
  · exact .inr fun he => hx (he.trans (h y hy))

theorem Apart.after_char {kind : Char → Option κ} (a : List Char) {c : Char} (b : List Char)
    (h : kind c = none) : Apart kind (a ++ [c]) b := by
  refine Apart.of_left b fun x hx => ?_
  rw [List.getLast?_concat] at hx
  cases hx
  exact h

theorem Apart.before_char {kind : Char → Option κ} (a : List Char) {c : Char} (b : List Char)
    (h : kind c = none) : Apart kind a (c :: b) := by
  refine Apart.of_right a fun x hx => ?_
  cases hx
  exact h

theorem Apart.congr_left {kind : Char → Option κ} {a a' b : List Char}
    (h : a.getLast? = a'.getLast?) (hab : Apart kind a b) : Apart kind a' b := by
  intro x hx
  exact hab x (h ▸ hx)

theorem Apart.congr_right {kind : Char → Option κ} {a b b' : List Char}
    (h : b.head? = b'.head?) (hab : Apart kind a b) : Apart kind a b' := by
  intro x hx y hy
  exact hab x hx y (h ▸ hy)

theorem Apart.of_append {kind : Char → Option κ} {a b c : List Char} (h : Apart kind a (b ++ c)) :
    Apart kind a b := by
  cases b with
  | nil => exact Apart.nil_right kind a
  | cons d b => exact h.congr_right rfl

theorem Apart.append_left {kind : Char → Option κ} {a b c : List Char} (hb : Apart kind b c)
    (ha : Apart kind a (b ++ c)) : Apart kind (a ++ b) c := by
  cases b with
  | nil => rwa [List.append_nil]
  | cons d b =>
    refine hb.congr_left ?_
    rw [List.getLast?_append, List.getLast?_cons, Option.some_or]

theorem apart_cons_cons {kind : Char → Option κ} {c d : Char} {t : List Char} :
    Apart kind [c] (d :: t) ↔ ¬ ((kind c).isSome ∧ kind c = kind d) := by
  simp only [Apart, List.getLast?_singleton, List.head?_cons, Option.mem_def, Option.some.injEq,
    forall_eq']
  cases kind c <;> simp

/-- All characters are of one class, or there is a single character and it has no class. -/
def Run.Uniform (kind : Char → Option κ) (r : Run) : Prop :=
  (∃ k, ∀ x ∈ r.text, kind x = some k) ∨ kind r.first = none ∧ r.more = []

theorem Run.Uniform.text_eq {kind : Char → Option κ} {r : Run} (hu : r.Uniform kind)
    (h : kind r.first = none) : r.text = [r.first] := by
  rcases hu with ⟨k, hk⟩ | ⟨-, hm⟩
  · rw [hk r.first (by simp [Run.text])] at h
    cases h
  · rw [Run.text, hm]

theorem Run.Uniform.kind_eq {kind : Char → Option κ} {r : Run} {k : κ} (hu : r.Uniform kind)
    (h : kind r.first = some k) : ∀ c ∈ r.text, kind c = some k := by
  rcases hu with ⟨k', hk'⟩ | ⟨hn, -⟩
  · have hf := hk' r.first (by simp [Run.text])
    rw [h] at hf
    cases hf
    exact hk'
  · rw [h] at hn
    cases hn

/-! ## The pieces of a text -/

variable [DecidableEq κ]

theorem exists_runs_cons (kind : Char → Option κ) (c : Char) (t : List Char) :
    ∃ more rs, runs kind (c :: t) = ⟨c, more⟩ :: rs := by
  rw [runs_cons]
  cases runs kind t with
  | nil => exact ⟨[], [], rfl⟩
  | cons r rs =>
    simp only [consRun]
    split
    · exact ⟨r.text, rs, rfl⟩
    · exact ⟨[], r :: rs, rfl⟩

theorem consRun_append (kind : Char → Option κ) (c : Char) (r : Run) (rs rs' : List Run) :
    consRun kind c (r :: (rs ++ rs')) = consRun kind c (r :: rs) ++ rs' := by
  simp only [consRun]
  split <;> rfl

theorem consRun_of_apart {kind : Char → Option κ} {c : Char} {b : List Char}
    (h : Apart kind [c] b) : consRun kind c (runs kind b) = ⟨c, []⟩ :: runs kind b := by
  cases b with
  | nil => rfl
  | cons d t =>
    obtain ⟨more, rs, hr⟩ := exists_runs_cons kind d t
    rw [hr]
    exact if_neg (apart_cons_cons.1 h)

theorem runs_append {kind : Char → Option κ} {a b : List Char} (h : Apart kind a b) :
    runs kind (a ++ b) = runs kind a ++ runs kind b := by
  induction a with
  | nil => rfl
  | cons c a ih =>
    cases a with
    | nil => exact consRun_of_apart h
    | cons d a =>
      have ih' := ih (h.congr_left (List.getLast?_cons_cons))
      obtain ⟨more, rs, hr⟩ := exists_runs_cons kind d a
      rw [List.cons_append, runs_cons, ih', runs_cons kind c, hr, List.cons_append,
        consRun_append]

theorem runs_cons_of_none {kind : Char → Option κ} {c : Char} (t : List Char)
    (h : kind c = none) : runs kind (c :: t) = ⟨c, []⟩ :: runs kind t := by
  rw [runs_cons]
  exact consRun_of_apart (Apart.after_char [] t h)

/-! ## Uniform pieces -/

theorem runs_of_forall {kind : Char → Option κ} {k : κ} {c : Char} {more : List Char}
    (h : ∀ x ∈ c :: more, kind x = some k) : runs kind (c :: more) = [⟨c, more⟩] := by
  induction more generalizing c with
  | nil => rfl
  | cons d more ih =>
    have hc : kind c = some k := h c (by simp)
    have hd : kind d = some k := h d (by simp)
    rw [runs_cons, ih fun x hx => h x (List.mem_cons_of_mem c hx)]
    simp [consRun, hc, hd, Run.text]

theorem Run.Uniform.runs_text {kind : Char → Option κ} {r : Run} (h : r.Uniform kind) :
    runs kind r.text = [r] := by
  obtain ⟨c, more⟩ := r
  rcases h with ⟨k, hk⟩ | ⟨hc, hm⟩
  · exact runs_of_forall hk
  · cases hm
    exact runs_cons_of_none [] hc

theorem runs_text_append {kind : Char → Option κ} {r : Run} {rest : List Char}
    (h : r.Uniform kind) (ha : Apart kind r.text rest) :
    runs kind (r.text ++ rest) = r :: runs kind rest := by
  rw [runs_append ha, h.runs_text]
  rfl

/-- The first piece of a text is uniform and apart from what follows it. -/
theorem exists_of_runs_eq_cons {kind : Char → Option κ} {t : List Char} {r : Run}
    {rs : List Run} (h : runs kind t = r :: rs) :
    ∃ rest, t = r.text ++ rest ∧ runs kind rest = rs ∧ r.Uniform kind ∧
      Apart kind r.text rest := by
  induction t generalizing r rs with
  | nil => cases h
  | cons c t ih =>
    cases t with
    | nil =>
      cases h
      refine ⟨[], rfl, rfl, ?_, Apart.nil_right kind _⟩
      cases hk : kind c with
      | none => exact .inr ⟨hk, rfl⟩
      | some k => exact .inl ⟨k, fun x hx => by rw [List.mem_singleton.1 hx, hk]⟩
    | cons d t =>
      obtain ⟨more, rs', hr⟩ := exists_runs_cons kind d t
      obtain ⟨rest, ht, hrest, hu, ha⟩ := ih hr
      rw [runs_cons, hr, consRun] at h
      split at h
      · rename_i hj
        cases h
        refine ⟨rest, by rw [ht]; rfl, hrest, ?_, ha.congr_left (by simp [Run.text])⟩
        rcases hu with ⟨k, hk⟩ | ⟨hd, _⟩
        · have hd : kind d = some k := hk d (by simp [Run.text])
          exact .inl ⟨k, List.forall_mem_cons.2 ⟨hj.2.trans hd, hk⟩⟩
        · have hs := hj.1
          rw [hj.2, hd] at hs
          cases hs
      · rename_i hj
        cases h
        refine ⟨d :: t, rfl, hr, ?_, apart_cons_cons.2 hj⟩
        cases hk : kind c with
        | none => exact .inr ⟨hk, rfl⟩
        | some k => exact .inl ⟨k, fun x hx => by rw [List.mem_singleton.1 hx, hk]⟩

/-- Induction on a text, one piece at a time. -/
@[elab_as_elim]
theorem cut_induction (kind : Char → Option κ) {P : List Char → Prop} (nil : P [])
    (run : ∀ (r : Run) (rest : List Char), r.Uniform kind → Apart kind r.text rest →
      P rest → P (r.text ++ rest)) (t : List Char) : P t := by
  induction hn : t.length using Nat.strongRecOn generalizing t with
  | ind n ih =>
    cases t with
    | nil => exact nil
    | cons c t =>
      obtain ⟨more, rs, hr⟩ := exists_runs_cons kind c t
      obtain ⟨rest, ht, -, hu, ha⟩ := exists_of_runs_eq_cons hr
      have hlt : rest.length < n := by
        rw [← hn, ht, List.length_append, Run.length_text]
        omega
      rw [ht]
      exact run _ rest hu ha (ih rest.length hlt rest rfl)

theorem uniform_of_mem_runs {kind : Char → Option κ} {t : List Char} {r : Run}
    (h : r ∈ runs kind t) : r.Uniform kind := by
  induction t using cut_induction kind with
  | nil => cases h
  | run r' rest hu ha ih =>
    rw [runs_text_append hu ha] at h
    rcases List.mem_cons.1 h with rfl | h
    · exact hu
    · exact ih h

end LineCalculator.Text
