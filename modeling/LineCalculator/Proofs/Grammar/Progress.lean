import LineCalculator.Proofs.Grammar.Walk
/-! # Every walk goes on, stays in bounds and ends

A walk performs the descent: it comes to where the descent leaves its cursor, with the same value or
error and the same events. Some text is passed between two calls of one function that are open at
once. So five calls for each character are enough, and no cut on the way is impossible.

* `Head.InBounds`, `Passage.Sound`: where a walk is, and where it has been.
* `Passage.Stands`, `Reaches`: a walk at a cursor; what it did until it came to a cursor.
* `next_reaches`, `passWhile_reaches`, `eat_of_eq`, `eat_of_ne`, `takeWhile_reaches`: the moves.
* `Performs`: a part of a walk does what a function of the descent does. `walkFactor_performs` and
  the others after it go phrase by phrase.
* `enoughCalls`: how many calls are enough for a text.
* `walk_progresses`: the walk over any text.
-/

namespace LineCalculator.Expression
set_option autoImplicit false
open Text Walk

/-! ## In bounds -/

/-- A cursor in a text: before its byte offset is the part of the text that is not left. -/
def Cursor.Within (source : List Char) (c : Cursor) : Prop :=
  ∃ before, source = before ++ c.text ∧ c.position = byteLength before

/-- The byte offset is not inside a character nor beyond the end, and the character is the one found
there. At the end, and only there, is none. -/
structure Head.InBounds (source : List Char) (h : Head) : Prop where
  boundary : ∃ before after, source = before ++ after ∧ h.position = byteLength before ∧
    h.current = after.head?
  position_le : h.position ≤ byteLength source
  current_eq_none_iff : h.current = none ↔ h.position = byteLength source

/-- A passage that never left the text and never went back. -/
structure Passage.Sound (source : List Char) (p : Passage) : Prop where
  inBounds : ∀ h ∈ p.heads, h.InBounds source
  onward : p.heads.Pairwise fun later earlier => earlier.position ≤ later.position

/-- The same place, other factors being open. -/
def Passage.withDepth (p : Passage) (depth : Nat) : Passage :=
  ⟨{ p.head with depth := depth }, p.heads, p.events⟩

/-- A passage that has come to a cursor. -/
structure Passage.Stands (source : List Char) (p : Passage) (c : Cursor) : Prop where
  sound : p.Sound source
  within : c.Within source
  position : p.head.position = c.position
  current : p.head.current = c.text.head?

/-- On the way from one passage to another a cursor was reached, and these events occurred. As many
factors are open as before. -/
structure Reaches (source : List Char) (p : Passage) (c : Cursor) (events : List Event)
    (p' : Passage) : Prop where
  stands : p'.Stands source c
  heads : p.heads <:+ p'.heads
  depth : p'.head.depth = p.head.depth
  events : p'.events = p.events ++ events

variable {env : Environment} {source : List Char}

theorem byteLength_eq_zero {text : List Char} : byteLength text = 0 ↔ text = [] := by
  cases text with
  | nil => exact iff_of_true rfl rfl
  | cons c text =>
    have hpos := c.utf8Size_pos
    refine iff_of_false ?_ (List.cons_ne_nil _ _)
    rw [byteLength]
    omega

theorem Cursor.Within.inBounds {c : Cursor} (h : c.Within source) (depth : Nat) :
    (Head.mk c.position c.text.head? depth).InBounds source := by
  obtain ⟨before, rfl, hpos⟩ := h
  have hlen : byteLength (before ++ c.text) = c.position + byteLength c.text := by
    rw [byteLength_append, hpos]
  refine ⟨⟨before, c.text, rfl, hpos, rfl⟩, ?_, ?_⟩
  · rw [hlen]
    exact Nat.le_add_right _ _
  · rw [List.head?_eq_none_iff, ← byteLength_eq_zero, hlen]
    dsimp only
    omega

/-- Where less of a text is left, more of it was passed. -/
theorem Cursor.Within.position_lt {c c' : Cursor} (h : c.Within source) (h' : c'.Within source)
    (hlt : c'.text.length < c.text.length) : c.position < c'.position := by
  obtain ⟨before, hc, hpos⟩ := h
  obtain ⟨before', hc', hpos'⟩ := h'
  obtain ⟨more, hmore⟩ : c'.text <:+ c.text :=
    List.suffix_of_suffix_length_le ⟨before', hc'.symm⟩ ⟨before, hc.symm⟩ hlt.le
  have hne : byteLength more ≠ 0 := by
    rw [Ne, byteLength_eq_zero]
    rintro rfl
    rw [← hmore, List.nil_append] at hlt
    exact lt_irrefl _ hlt
  have hlen : byteLength before + byteLength c.text = byteLength before' + byteLength c'.text := by
    rw [← byteLength_append, ← byteLength_append, ← hc, ← hc']
  rw [← hmore, byteLength_append] at hlen
  omega

theorem Cursor.Within.pass {c : Cursor} (h : c.Within source) (q : Char → Bool) :
    (c.pass q).Within source := by
  obtain ⟨before, hc, hpos⟩ := h
  refine ⟨before ++ c.text.takeWhile q, ?_, ?_⟩
  · rw [List.append_assoc, Cursor.pass, List.takeWhile_append_dropWhile, hc]
  · rw [byteLength_append, Cursor.pass, hpos]

theorem Cursor.Within.advance {c : Cursor} {ch : Char} {rest : List Char} (h : c.Within source)
    (hc : c.text = ch :: rest) : (Cursor.mk (c.position + ch.utf8Size) rest).Within source := by
  obtain ⟨before, hsource, hpos⟩ := h
  refine ⟨before ++ [ch], ?_, ?_⟩
  · rw [hsource, hc, List.append_assoc, List.singleton_append]
  · rw [byteLength_append, hpos]
    rfl

theorem Passage.Sound.start (source : List Char) : (Passage.start source).Sound source := by
  have hwithin : (Cursor.mk 0 source).Within source := ⟨[], rfl, rfl⟩
  refine ⟨?_, List.pairwise_singleton _ _⟩
  intro h hh
  rw [List.mem_singleton.1 hh]
  exact hwithin.inBounds 0

theorem Passage.Sound.moveTo {p : Passage} {h : Head} (hp : p.Sound source)
    (hh : h.InBounds source) (hle : p.head.position ≤ h.position) :
    Passage.Sound source ⟨h, p.heads, p.events⟩ := by
  refine ⟨List.forall_mem_cons.2 ⟨hh, hp.inBounds⟩, List.pairwise_cons.2 ⟨?_, hp.onward⟩⟩
  intro h' hh'
  rcases List.mem_cons.1 hh' with rfl | hearlier
  · exact hle
  · exact (List.rel_of_pairwise_cons hp.onward hearlier).trans hle

theorem Passage.Sound.exists_cursor {p : Passage} (hp : p.Sound source) :
    ∃ c, p.Stands source c := by
  obtain ⟨before, after, hsource, hpos, hcur⟩ := (hp.inBounds p.head List.mem_cons_self).boundary
  exact ⟨⟨p.head.position, after⟩, hp, ⟨before, hsource, hpos⟩, rfl, hcur⟩

namespace Passage.Stands
variable {p : Passage} {c : Cursor}

theorem moveTo (h : p.Stands source c) {c' : Cursor} (hc : c'.Within source)
    (hle : c.position ≤ c'.position) (depth : Nat) :
    Stands source ⟨⟨c'.position, c'.text.head?, depth⟩, p.heads, p.events⟩ c' := by
  have hle' : p.head.position ≤ c'.position := h.position.trans_le hle
  exact ⟨h.sound.moveTo (hc.inBounds depth) hle', hc, rfl, rfl⟩

theorem withDepth (h : p.Stands source c) (depth : Nat) :
    (p.withDepth depth).Stands source c := by
  have hmove := h.moveTo h.within le_rfl depth
  rwa [← h.position, ← h.current] at hmove

theorem log (h : p.Stands source c) (events : List Event) :
    Stands source { p with events := events } c :=
  ⟨⟨h.sound.inBounds, h.sound.onward⟩, h.within, h.position, h.current⟩

theorem reaches (h : p.Stands source c) : Reaches source p c [] p :=
  ⟨h, List.suffix_rfl, rfl, (List.append_nil _).symm⟩

end Passage.Stands

theorem Reaches.trans {p p' p'' : Passage} {c c' : Cursor} {events events' : List Event}
    (h : Reaches source p c events p') (h' : Reaches source p' c' events' p'') :
    Reaches source p c' (events ++ events') p'' := by
  refine ⟨h'.stands, h.heads.trans h'.heads, h'.depth.trans h.depth, ?_⟩
  rw [h'.events, h.events, List.append_assoc]

/-! ## Moves -/

theorem Walk.bind_of_some {α β : Type} {m : Walk α} {f : α → Walk β} {p p' : Passage} {a : α}
    (h : m p = some (a, p')) : (m >>= f) p = f a p' := by
  show (m p).bind _ = _
  rw [h]
  rfl

theorem Walk.head_eq (p : Passage) : head p = some (p.head, p) := rfl

theorem Walk.enter_eq (p : Passage) : enter p = some ((), p.withDepth (p.head.depth + 1)) := rfl

theorem Walk.leave_eq (p : Passage) : leave p = some ((), p.withDepth (p.head.depth - 1)) := rfl

section
variable {p : Passage} {c : Cursor} {ch : Char} {rest : List Char} {calls : Nat}

theorem next_reaches (h : p.Stands source c) (hc : c.text = ch :: rest) :
    ∃ p', next source p = some ((), p') ∧
      Reaches source p ⟨c.position + ch.utf8Size, rest⟩ [] p' := by
  have hwithin := h.within.advance hc
  obtain ⟨before, hsource, hpos⟩ := h.within.advance hc
  have hcur : p.head.current = some ch := by
    rw [h.current, hc]
    rfl
  have hcut : cut source (p.head.position + ch.utf8Size) p = some ((before, rest), p) := by
    rw [cut, h.position, cutAt?_eq_some_iff.2 ⟨hsource, hpos.symm⟩]
    rfl
  have hstands := h.moveTo hwithin (Nat.le_add_right _ _) p.head.depth
  rw [← h.position] at hstands ⊢
  refine ⟨_, ?_, hstands, List.suffix_cons _ _, rfl, (List.append_nil _).symm⟩
  rw [next, bind_of_some (head_eq p), hcur]
  exact bind_of_some hcut

theorem passWhile_reaches (h : p.Stands source c) (hn : c.text.length < calls) (q : Char → Bool) :
    ∃ p', passWhile source q calls p = some ((), p') ∧ Reaches source p (c.pass q) [] p' := by
  obtain ⟨position, text⟩ := c
  induction text generalizing p position calls with
  | nil =>
    obtain ⟨calls, rfl⟩ := Nat.exists_eq_succ_of_ne_zero (Nat.ne_zero_of_lt hn)
    refine ⟨p, ?_, h.reaches⟩
    rw [passWhile, bind_of_some (head_eq p), h.current]
    rfl
  | cons ch text ih =>
    obtain ⟨calls, rfl⟩ := Nat.exists_eq_succ_of_ne_zero (Nat.ne_zero_of_lt hn)
    rw [passWhile, bind_of_some (head_eq p), h.current, List.head?_cons, Option.any_some]
    by_cases hq : q ch = true
    · obtain ⟨p₁, hnext, h₁⟩ := next_reaches h rfl
      obtain ⟨p₂, hpass, h₂⟩ := ih _ h₁.stands (Nat.lt_of_succ_lt_succ hn)
      refine ⟨p₂, ?_, ?_⟩
      · rw [if_pos hq, bind_of_some hnext, hpass]
      · have h₂ := h₁.trans h₂
        rw [Cursor.pass, List.takeWhile_cons_of_pos hq, List.dropWhile_cons_of_pos hq, byteLength,
          ← Nat.add_assoc]
        exact h₂
    · refine ⟨p, ?_, ?_⟩
      · rw [if_neg hq]
        rfl
      · rw [Cursor.pass, List.takeWhile_cons_of_neg hq, List.dropWhile_cons_of_neg hq]
        exact h.reaches

theorem Cursor.Stops.head?_ne {α : Type} {meaning : Char → Option α} (hstop : c.Stops meaning)
    (h : meaning ch ≠ none) : c.skip.text.head? ≠ some ch :=
  fun hc => h (hstop ch hc)

theorem head?_ne_of_ne {text : List Char} {ch' : Char} (h : text = ch :: rest) (hne : ch ≠ ch') :
    text.head? ≠ some ch' := by
  rw [h]
  intro heq
  exact hne (Option.some.inj heq)

theorem eat_of_eq (h : p.Stands source c) (hn : c.text.length < calls)
    (hc : c.skip.text = ch :: rest) : ∃ p', eat source calls ch p = some (true, p') ∧
      Reaches source p ⟨c.skip.position + ch.utf8Size, rest⟩ [] p' := by
  obtain ⟨p₁, hpass, h₁⟩ := passWhile_reaches h hn (· = ' ')
  obtain ⟨p₂, hnext, h₂⟩ := next_reaches h₁.stands hc
  have hcur : p₁.head.current = some ch := h₁.stands.current.trans (congrArg List.head? hc)
  refine ⟨p₂, ?_, h₁.trans h₂⟩
  rw [eat, bind_of_some hpass, bind_of_some (head_eq p₁), if_pos hcur, bind_of_some hnext]
  rfl

theorem eat_of_ne (h : p.Stands source c) (hn : c.text.length < calls)
    (hc : c.skip.text.head? ≠ some ch) :
    ∃ p', eat source calls ch p = some (false, p') ∧ Reaches source p c.skip [] p' := by
  obtain ⟨p₁, hpass, h₁⟩ := passWhile_reaches h hn (· = ' ')
  have hcur : p₁.head.current ≠ some ch := fun hcur => hc (h₁.stands.current.symm.trans hcur)
  refine ⟨p₁, ?_, h₁⟩
  rw [eat, bind_of_some hpass, bind_of_some (head_eq p₁), if_neg hcur]
  rfl

theorem takeWhile_reaches (h : p.Stands source c) (hn : c.text.length < calls) (q : Char → Bool) :
    ∃ p', Walk.takeWhile source calls q p = some (c.text.takeWhile q, p') ∧
      Reaches source p (c.pass q) [] p' := by
  obtain ⟨p₁, hpass, h₁⟩ := passWhile_reaches h hn q
  obtain ⟨before, hsource, hpos⟩ := h.within
  have hslice : slice? source p.head.position p₁.head.position =
      some (c.text.takeWhile q) := by
    refine slice?_eq_some_iff.2 ⟨before, c.text.dropWhile q, ?_, ?_, ?_⟩
    · rw [List.append_assoc, List.takeWhile_append_dropWhile, hsource]
    · rw [h.position, hpos]
    · rw [h₁.stands.position, byteLength_append, ← hpos]
      rfl
  refine ⟨p₁, ?_, h₁⟩
  rw [Walk.takeWhile, bind_of_some (head_eq p), bind_of_some hpass, bind_of_some (head_eq p₁),
    slice, hslice]
  rfl

end

/-! ## Parts of a walk -/

theorem Logged.bind_map {ε α β : Type} (l : Logged ε α) (f : α → β) :
    l.bind (fun a => .value (f a)) = ⟨l.events, l.result.map f⟩ := by
  obtain ⟨events, result⟩ := l
  cases result with
  | error e => rfl
  | ok a => exact congrArg (Logged.mk · _) (List.append_nil events)

/-- What a function of the descent finds is what a part of a walk finds, and the walk has come to
where the descent leaves its cursor. -/
def Performs {α : Type} (source : List Char) (m : Try α) (p : Passage)
    (l : Logged ExpressionError (α × Cursor)) : Prop :=
  ∃ c' p', m p = some (l.result.map Prod.fst, p') ∧ Reaches source p c' l.events p' ∧
    ∀ r, l.result = .ok r → r.2 = c'

namespace Performs
variable {α β : Type} {p p' : Passage} {c c' : Cursor} {f : α → Try β}
  {l : Logged ExpressionError (β × Cursor)}

theorem pure (h : p.Stands source c) (a : α) : Performs source (pure a) p (.value (a, c)) := by
  refine ⟨c, p, rfl, h.reaches, ?_⟩
  intro r hr
  cases hr
  rfl

theorem throw (h : p.Stands source c) (e : ExpressionError) :
    Performs source (throw e : Try α) p (.error e) := by
  refine ⟨c, p, rfl, h.reaches, ?_⟩
  intro r hr
  cases hr

/-- Events and a result without a move. -/
theorem of_logged {m : Try α} {l : Logged ExpressionError α} (h : p.Stands source c)
    (hm : m p = some (l.result, { p with events := p.events ++ l.events })) :
    Performs source m p (l.bind fun a => .value (a, c)) := by
  obtain ⟨events, result⟩ := l
  rw [Logged.bind_map]
  refine ⟨c, { p with events := p.events ++ events }, ?_,
    ⟨h.log _, List.suffix_rfl, rfl, rfl⟩, ?_⟩
  · rw [hm]
    cases result with
    | error e => rfl
    | ok a => rfl
  · intro r hr
    cases result with
    | error e => cases hr
    | ok a =>
      cases hr
      rfl

theorem bind {m : Try α} {k : Logged ExpressionError (α × Cursor)}
    {g : α × Cursor → Logged ExpressionError (β × Cursor)} (hm : Performs source m p k)
    (hf : ∀ a c' p', k.result = .ok (a, c') → Reaches source p c' k.events p' →
      Performs source (f a) p' (g (a, c'))) : Performs source (m >>= f) p (k.bind g) := by
  obtain ⟨c₁, p₁, hp₁, h₁, hc₁⟩ := hm
  cases hk : k.result with
  | error e =>
    rw [Logged.bind_of_error hk]
    refine ⟨c₁, p₁, ?_, h₁, ?_⟩
    · rw [hk] at hp₁
      exact bind_of_some hp₁
    · intro r hr
      cases hr
  | ok r =>
    obtain ⟨a, c'⟩ := r
    cases hc₁ _ hk
    obtain ⟨c₂, p₂, hp₂, h₂, hc₂⟩ := hf a c' p₁ hk h₁
    rw [Performs, Logged.result_bind hk, Logged.events_bind hk]
    refine ⟨c₂, p₂, ?_, h₁.trans h₂, hc₂⟩
    rw [hk] at hp₁
    exact (bind_of_some hp₁).trans hp₂

/-- After a move comes the rest. -/
theorem after {w : Walk α} {a : α} (hw : w p = some (a, p')) (h : Reaches source p c [] p')
    (hf : Performs source (f a) p' l) : Performs source (liftM w >>= f) p l := by
  obtain ⟨c₂, p₂, hp₂, h₂, hc₂⟩ := hf
  refine ⟨c₂, p₂, ?_, h.trans h₂, hc₂⟩
  rw [← hp₂]
  show ((w p).bind _).bind _ = _
  rw [hw]
  rfl

/-- A walk knows where it is. -/
theorem here {f : Head → Try β} (h : p.Stands source c) (hf : Performs source (f p.head) p l) :
    Performs source (liftM head >>= f) p l :=
  after (head_eq p) h.reaches hf

variable {m m' m'' : Try β} {ch ch' : Char} {rest : List Char} {calls : Nat}

theorem eaten (h : p.Stands source c) (hn : c.text.length < calls) (hs : c.skip = c')
    (hc : c'.text = ch :: rest)
    (hm : ∀ p', Reaches source p ⟨c'.position + ch.utf8Size, rest⟩ [] p' →
      Performs source m p' l) :
    Performs source (do if ← eat source calls ch then m else m') p l := by
  subst hs
  obtain ⟨p₁, heat, h₁⟩ := eat_of_eq h hn hc
  refine after heat h₁ ?_
  rw [if_pos rfl]
  exact hm p₁ h₁

theorem not_eaten (h : p.Stands source c) (hn : c.text.length < calls) (hs : c.skip = c')
    (hc : c'.text.head? ≠ some ch)
    (hm : ∀ p', Reaches source p c' [] p' → Performs source m' p' l) :
    Performs source (do if ← eat source calls ch then m else m') p l := by
  subst hs
  obtain ⟨p₁, heat, h₁⟩ := eat_of_ne h hn hc
  refine after heat h₁ ?_
  rw [if_neg Bool.false_ne_true]
  exact hm p₁ h₁

theorem second_eaten (h : p.Stands source c) (hn : c.text.length < calls)
    (hc : c.skip.text = ch' :: rest) (hne : ch' ≠ ch)
    (hm : ∀ p', Reaches source p ⟨c.skip.position + ch'.utf8Size, rest⟩ [] p' →
      Performs source m' p' l) :
    Performs source (do
      if ← eat source calls ch then m else if ← eat source calls ch' then m' else m'') p l := by
  have hskip : c.skip.text.length < calls := (c.length_pass_le _).trans_lt hn
  refine not_eaten h hn rfl (head?_ne_of_ne hc hne) fun p₁ h₁ => ?_
  exact eaten h₁.stands hskip c.skip_skip hc fun p₂ h₂ => hm p₂ (h₁.trans h₂)

theorem neither_eaten (h : p.Stands source c) (hn : c.text.length < calls)
    (hc : c.skip.text.head? ≠ some ch) (hc' : c.skip.text.head? ≠ some ch')
    (hm : ∀ p', Reaches source p c.skip [] p' → Performs source m'' p' l) :
    Performs source (do
      if ← eat source calls ch then m else if ← eat source calls ch' then m' else m'') p l := by
  have hskip : c.skip.text.length < calls := (c.length_pass_le _).trans_lt hn
  refine not_eaten h hn rfl hc fun p₁ h₁ => ?_
  exact not_eaten h₁.stands hskip c.skip_skip hc' fun p₂ h₂ => hm p₂ (h₁.trans h₂)

end Performs

/-! ## One step of each function -/

section
variable {p : Passage} {c : Cursor} {ch : Char} {rest : List Char} {x : Float} {calls : Nat}
  {l : Logged ExpressionError (Float × Cursor)}

theorem callOn_performs (h : p.Stands source c) (f : Builtin) (x : Float) :
    Performs source (callOn f x) p
      (((f.apply x).mapError .domain).bind fun y => .value (y, c)) :=
  .of_logged h rfl

section
variable (h : p.Stands source c) (hn : c.text.length < calls)
include h hn

theorem walkScaled_stop (hstop : c.Stops Scale.ofChar?) :
    Performs source (walkScaled env source x (calls + 1)) p (.value (x, c.skip)) := by
  have htimes : c.skip.text.head? ≠ some '*' := hstop.head?_ne (by decide)
  have hover : c.skip.text.head? ≠ some '/' := hstop.head?_ne (by decide)
  rw [walkScaled]
  exact .neither_eaten h hn htimes hover fun p₁ h₁ => .pure h₁.stands x

theorem walkScaled_operator {o : Scale} (hrest : c.skip.text = ch :: rest)
    (ho : Scale.ofChar? ch = some o)
    (hm : ∀ p', Reaches source p ⟨c.skip.position + ch.utf8Size, rest⟩ [] p' →
      Performs source (do
        let y ← walkFactor env source calls
        walkScaled env source (o.combine x y) calls) p' l) :
    Performs source (walkScaled env source x (calls + 1)) p l := by
  have hmark := Scale.text_mark_of_ofChar? ho
  rw [walkScaled]
  cases o
  · cases hmark
    exact .eaten h hn rfl hrest hm
  · cases hmark
    exact .second_eaten h hn hrest (by decide) hm

theorem walkAdded_stop (hstop : c.Stops Sign.ofChar?) :
    Performs source (walkAdded env source x (calls + 1)) p (.value (x, c.skip)) := by
  have hplus : c.skip.text.head? ≠ some '+' := hstop.head?_ne (by decide)
  have hminus : c.skip.text.head? ≠ some '-' := hstop.head?_ne (by decide)
  rw [walkAdded]
  exact .neither_eaten h hn hplus hminus fun p₁ h₁ => .pure h₁.stands x

theorem walkAdded_operator {s : Sign} (hrest : c.skip.text = ch :: rest)
    (hs : Sign.ofChar? ch = some s)
    (hm : ∀ p', Reaches source p ⟨c.skip.position + ch.utf8Size, rest⟩ [] p' →
      Performs source (do
        let y ← walkTerm env source calls
        walkAdded env source (s.combine x y) calls) p' l) :
    Performs source (walkAdded env source x (calls + 1)) p l := by
  have hmark := Sign.text_mark_of_ofChar? hs
  rw [walkAdded]
  cases s
  · cases hmark
    exact .eaten h hn rfl hrest hm
  · cases hmark
    exact .second_eaten h hn hrest (by decide) hm

theorem walkNested_sign {s : Sign} (hrest : c.skip.text = ch :: rest)
    (hs : Sign.ofChar? ch = some s)
    (hm : ∀ p', Reaches source p ⟨c.skip.position + ch.utf8Size, rest⟩ [] p' →
      Performs source (do
        let x ← walkFactor env source calls
        return s.ofOperand x) p' l) :
    Performs source (walkNested env source (calls + 1)) p l := by
  have hmark := Sign.text_mark_of_ofChar? hs
  rw [walkNested]
  cases s
  · cases hmark
    refine .eaten h hn rfl hrest fun p₁ h₁ => ?_
    rw [← bind_pure (walkFactor env source calls)]
    exact hm p₁ h₁
  · cases hmark
    exact .second_eaten h hn hrest (by decide) hm

theorem walkNested_open (hrest : c.skip.text = '(' :: rest)
    (hm : ∀ p', Reaches source p ⟨c.skip.position + Char.utf8Size '(', rest⟩ [] p' →
      Performs source (do
        let x ← walkSum env source calls
        walkClosing source calls x) p' l) :
    Performs source (walkNested env source (calls + 1)) p l := by
  have hskip : c.skip.text.length < calls := (c.length_pass_le _).trans_lt hn
  have hplus : c.skip.text.head? ≠ some '+' := head?_ne_of_ne hrest (by decide)
  have hminus : c.skip.text.head? ≠ some '-' := head?_ne_of_ne hrest (by decide)
  rw [walkNested]
  refine .neither_eaten h hn hplus hminus fun p₁ h₁ => ?_
  exact .eaten h₁.stands hskip c.skip_skip hrest fun p₂ h₂ => hm p₂ (h₁.trans h₂)

theorem walkNested_operand (hs : c.Stops Sign.ofChar?) (ho : c.skip.text.head? ≠ some '(')
    (hm : ∀ p', Reaches source p c.skip [] p' →
      Performs source
        (match c.skip.text.head? with
          | some ch =>
            if Decimal.isNumeralChar ch then walkNumber source calls
            else if ch.isLower then walkWord env source calls
            else throw (.unexpectedCharacter ch c.skip.position)
          | none => throw (.unexpectedEnd c.skip.position)) p' l) :
    Performs source (walkNested env source (calls + 1)) p l := by
  have hskip : c.skip.text.length < calls := (c.length_pass_le _).trans_lt hn
  have hplus : c.skip.text.head? ≠ some '+' := hs.head?_ne (by decide)
  have hminus : c.skip.text.head? ≠ some '-' := hs.head?_ne (by decide)
  rw [walkNested]
  refine .neither_eaten h hn hplus hminus fun p₁ h₁ => ?_
  refine .not_eaten h₁.stands hskip c.skip_skip ho fun p₂ h₂ => ?_
  refine .here h₂.stands ?_
  rw [h₂.stands.current, h₂.stands.position]
  exact hm p₂ (h₁.trans h₂)

theorem walkClosing_performs (x : Float) :
    Performs source (walkClosing source calls x) p (parseClosing x c) := by
  rw [walkClosing, parseClosing]
  rcases c.stops_or_goes_on (only ')') with hstop | ⟨ch, rest, u, hrest, hch⟩
  · rw [hstop.eat?_eq_none]
    refine .not_eaten h hn rfl (hstop.head?_ne (by decide)) fun p₁ h₁ => ?_
    refine .here h₁.stands ?_
    rw [h₁.stands.position]
    exact .throw h₁.stands _
  · obtain ⟨last, heat, hlast⟩ := Cursor.eat?_of_some hrest hch
    have hclose : ch = ')' := by
      by_contra hne
      rw [only, if_neg hne] at hch
      cases hch
    subst hclose
    rw [heat]
    dsimp only
    rw [hlast]
    exact .eaten h hn rfl hrest fun p₁ h₁ => .pure h₁.stands x

end

section
variable {depth : Nat} (h : p.Stands source c.skip) (hn : c.text.length < calls)
  (hd : depth < maxOpenFactors)
include h hn hd

theorem walkNumber_performs (hliteral : c.literal ≠ []) :
    Performs source (walkNumber source calls) p (parseFactor env depth c) := by
  have hskip : c.skip.text.length < calls := (c.length_pass_le _).trans_lt hn
  obtain ⟨p₁, htake, h₁⟩ := takeWhile_reaches h hskip Decimal.isNumeralChar
  have htake : Walk.takeWhile source calls Decimal.isNumeralChar p = some (c.literal, p₁) := htake
  rw [walkNumber, parseFactor_numeral hd hliteral]
  refine .here h (.after htake h₁ ?_)
  cases Decimal.read? c.literal with
  | some d => exact .pure h₁.stands _
  | none =>
    rw [h.position]
    exact .throw h₁.stands _

end

end

/-! ## Phrase by phrase -/

section
-- The recursion is that of the calls. There are enough of them for a phrase as long as there are
-- five for each character that is left: no more than five follow each other before one is passed.
mutual

theorem walkFactor_performs (calls : Nat) (p : Passage) (c : Cursor) (h : p.Stands source c)
    (hn : 5 * c.text.length + 2 < calls) :
    Performs source (walkFactor env source calls) p (parseFactor env p.head.depth c) := by
  obtain ⟨calls, rfl⟩ := Nat.exists_eq_succ_of_ne_zero (Nat.ne_zero_of_lt hn)
  rw [walkFactor]
  by_cases hd : maxOpenFactors ≤ p.head.depth
  · rw [parseFactor_tooDeep hd, ← h.position]
    refine ⟨c, p, ?_, h.reaches, ?_⟩
    · rw [bind_of_some (head_eq p), if_pos hd]
      rfl
    · intro r hr
      cases hr
  · have hopen := h.withDepth (p.head.depth + 1)
    obtain ⟨c', p₁, hp₁, h₁, hc'⟩ := walkNested_performs calls _ c hopen p.head.depth
      (Nat.not_le.1 hd) rfl (Nat.lt_of_succ_lt_succ hn)
    have hrun : (walkNested env source calls).run (p.withDepth (p.head.depth + 1)) = _ := hp₁
    have hclose := h₁.stands.withDepth (p₁.head.depth - 1)
    refine ⟨c', p₁.withDepth (p₁.head.depth - 1), ?_, ⟨hclose, ?_, ?_, h₁.events⟩, hc'⟩
    · rw [bind_of_some (head_eq p), if_neg hd, bind_of_some (enter_eq p), bind_of_some hrun,
        bind_of_some (leave_eq p₁)]
      rfl
    · exact ((List.suffix_cons _ _).trans h₁.heads).trans (List.suffix_cons _ _)
    · show p₁.head.depth - 1 = p.head.depth
      rw [h₁.depth]
      exact Nat.add_sub_cancel _ _
termination_by calls

theorem walkNested_performs (calls : Nat) (p : Passage) (c : Cursor) (h : p.Stands source c)
    (depth : Nat) (hd : depth < maxOpenFactors) (hp : p.head.depth = depth + 1)
    (hn : 5 * c.text.length + 1 < calls) :
    Performs source (walkNested env source calls) p (parseFactor env depth c) := by
  obtain ⟨calls, rfl⟩ := Nat.exists_eq_succ_of_ne_zero (Nat.ne_zero_of_lt hn)
  have hall : c.text.length < calls := by omega
  cases hrest : c.skip.text with
  | nil =>
    have hhead : ∀ ch, c.skip.text.head? ≠ some ch := by
      rw [hrest]
      intro ch hch
      cases hch
    have hstop : c.Stops Sign.ofChar? := fun ch hch => absurd hch (hhead ch)
    rw [parseFactor_end hd hrest]
    refine walkNested_operand h hall hstop (hhead _) fun p₁ h₁ => ?_
    rw [hrest]
    exact .throw h₁.stands _
  | cons ch rest =>
    have hlt := Cursor.length_lt_of_skip hrest
    cases hs : Sign.ofChar? ch with
    | some s =>
      rw [parseFactor_sign hd hrest hs]
      refine walkNested_sign h hall hrest hs fun p₁ h₁ => ?_
      have hfactor := walkFactor_performs calls p₁ _ h₁.stands (by dsimp only; omega)
      rw [h₁.depth, hp] at hfactor
      exact hfactor.bind fun x c' p₂ hx h₂ => .pure h₂.stands _
    | none =>
      by_cases ho : ch = '('
      · subst ho
        rw [parseFactor_open hd hrest]
        refine walkNested_open h hall hrest fun p₁ h₁ => ?_
        have hsum := walkSum_performs calls p₁ _ h₁.stands (by dsimp only; omega)
        rw [h₁.depth, hp] at hsum
        refine hsum.bind fun x c' p₂ hx h₂ => ?_
        have hbeyond := (parseSum_beyond hx).trans hlt
        exact walkClosing_performs h₂.stands (hbeyond.trans hall) x
      · have hstop : c.Stops Sign.ofChar? := by
          intro ch' hch'
          rw [hrest] at hch'
          cases hch'
          exact hs
        refine walkNested_operand h hall hstop (head?_ne_of_ne hrest ho) fun p₁ h₁ => ?_
        rw [hrest]
        dsimp only [List.head?_cons]
        split
        · rename_i hnumeral
          exact walkNumber_performs h₁.stands hall hd (Cursor.takeWhile_ne hrest hnumeral)
        · rename_i hnumeral
          split
          · rename_i hlower
            have hw := Cursor.word_ne_iff.2 (Cursor.takeWhile_ne hrest hlower)
            exact walkWord_performs calls p₁ c h₁.stands depth hd (h₁.depth.trans hp) hw
              (Nat.lt_of_succ_lt_succ hn)
          · rename_i hlower
            have hk : tokenKind ch = none := by
              rw [tokenKind, if_neg hnumeral, if_neg hlower]
            rw [parseFactor_unexpected hd hrest hs ho hk]
            exact .throw h₁.stands _
termination_by calls

theorem walkWord_performs (calls : Nat) (p : Passage) (c : Cursor) (h : p.Stands source c.skip)
    (depth : Nat) (hd : depth < maxOpenFactors) (hp : p.head.depth = depth + 1) (hw : c.word ≠ "")
    (hn : 5 * c.text.length < calls) :
    Performs source (walkWord env source calls) p (parseFactor env depth c) := by
  obtain ⟨calls, rfl⟩ := Nat.exists_eq_succ_of_ne_zero (Nat.ne_zero_of_lt hn)
  obtain ⟨ch, rest, hrest, hch⟩ := Cursor.exists_of_takeWhile_ne (Cursor.word_ne_iff.1 hw)
  have hlt := Cursor.length_pass_lt hrest hch
  have hskip : c.skip.text.length ≤ c.text.length := c.length_pass_le _
  have hall : c.skip.text.length < calls := by omega
  obtain ⟨p₁, htake, h₁⟩ := takeWhile_reaches h hall Char.isLower
  have hname : String.ofList (c.skip.text.takeWhile Char.isLower) = c.word := rfl
  rw [walkWord, parseFactor_word hd hw]
  refine .here h (.after htake h₁ ?_)
  rw [hname]
  cases Builtin.ofName? c.word with
  | some f =>
    have hfactor := walkFactor_performs calls p₁ _ h₁.stands (by omega)
    rw [h₁.depth, hp] at hfactor
    refine hfactor.bind fun x c' p₂ hx h₂ => ?_
    exact callOn_performs h₂.stands f x
  | none =>
    dsimp only
    cases env.get? c.word with
    | some x => exact .pure h₁.stands x
    | none =>
      rw [h.position]
      exact .throw h₁.stands _
termination_by calls

theorem walkTerm_performs (calls : Nat) (p : Passage) (c : Cursor) (h : p.Stands source c)
    (hn : 5 * c.text.length + 3 < calls) :
    Performs source (walkTerm env source calls) p (parseTerm env p.head.depth c) := by
  obtain ⟨calls, rfl⟩ := Nat.exists_eq_succ_of_ne_zero (Nat.ne_zero_of_lt hn)
  rw [walkTerm, parseTerm_eq]
  have hfactor := walkFactor_performs calls p c h (Nat.lt_of_succ_lt_succ hn)
  refine hfactor.bind fun x c' p₁ hx h₁ => ?_
  have hlt := parseFactor_beyond hx
  rw [← h₁.depth]
  exact walkScaled_performs x calls p₁ c' h₁.stands (by dsimp only at hlt; omega)
termination_by calls

theorem walkScaled_performs (x : Float) (calls : Nat) (p : Passage) (c : Cursor)
    (h : p.Stands source c) (hn : 5 * c.text.length + 1 < calls) :
    Performs source (walkScaled env source x calls) p (parseScaled env p.head.depth x c) := by
  obtain ⟨calls, rfl⟩ := Nat.exists_eq_succ_of_ne_zero (Nat.ne_zero_of_lt hn)
  have hall : c.text.length < calls := by omega
  rcases c.stops_or_goes_on Scale.ofChar? with hstop | ⟨ch, rest, o, hrest, ho⟩
  · rw [parseScaled_stop hstop]
    exact walkScaled_stop h hall hstop
  · have hlt := Cursor.length_lt_of_skip hrest
    rw [parseScaled_operator hrest ho]
    refine walkScaled_operator h hall hrest ho fun p₁ h₁ => ?_
    have hfactor := walkFactor_performs calls p₁ _ h₁.stands (by dsimp only; omega)
    rw [h₁.depth] at hfactor
    refine hfactor.bind fun y c' p₂ hy h₂ => ?_
    have hbeyond := (parseFactor_beyond hy).trans hlt
    rw [← h₁.depth, ← h₂.depth]
    exact walkScaled_performs (o.combine x y) calls p₂ c' h₂.stands
      (by dsimp only at hbeyond; omega)
termination_by calls

theorem walkSum_performs (calls : Nat) (p : Passage) (c : Cursor) (h : p.Stands source c)
    (hn : 5 * c.text.length + 4 < calls) :
    Performs source (walkSum env source calls) p (parseSum env p.head.depth c) := by
  obtain ⟨calls, rfl⟩ := Nat.exists_eq_succ_of_ne_zero (Nat.ne_zero_of_lt hn)
  rw [walkSum, parseSum_eq]
  have hterm := walkTerm_performs calls p c h (Nat.lt_of_succ_lt_succ hn)
  refine hterm.bind fun x c' p₁ hx h₁ => ?_
  have hlt := parseTerm_beyond hx
  rw [← h₁.depth]
  exact walkAdded_performs x calls p₁ c' h₁.stands (by dsimp only at hlt; omega)
termination_by calls

theorem walkAdded_performs (x : Float) (calls : Nat) (p : Passage) (c : Cursor)
    (h : p.Stands source c) (hn : 5 * c.text.length + 1 < calls) :
    Performs source (walkAdded env source x calls) p (parseAdded env p.head.depth x c) := by
  obtain ⟨calls, rfl⟩ := Nat.exists_eq_succ_of_ne_zero (Nat.ne_zero_of_lt hn)
  have hall : c.text.length < calls := by omega
  rcases c.stops_or_goes_on Sign.ofChar? with hstop | ⟨ch, rest, s, hrest, hs⟩
  · rw [parseAdded_stop hstop]
    exact walkAdded_stop h hall hstop
  · have hlt := Cursor.length_lt_of_skip hrest
    rw [parseAdded_operator hrest hs]
    refine walkAdded_operator h hall hrest hs fun p₁ h₁ => ?_
    have hterm := walkTerm_performs calls p₁ _ h₁.stands (by dsimp only; omega)
    rw [h₁.depth] at hterm
    refine hterm.bind fun y c' p₂ hy h₂ => ?_
    have hbeyond := (parseTerm_beyond hy).trans hlt
    rw [← h₁.depth, ← h₂.depth]
    exact walkAdded_performs (s.combine x y) calls p₂ c' h₂.stands
      (by dsimp only at hbeyond; omega)
termination_by calls

end
end

/-! ## Whole texts -/

/-- The phrases of the grammar that have a function of their own. -/
inductive Phrase where
  | factor
  | term
  | sum
deriving DecidableEq, Repr

namespace Phrase

/-- The function that reads the phrase in place. -/
def walk (env : Environment) (source : List Char) : Phrase → Nat → Try Float
  | factor => walkFactor env source
  | term => walkTerm env source
  | sum => walkSum env source

/-- The function of the descent. -/
def parse (env : Environment) (depth : Nat) : Phrase → Cursor →
    Logged ExpressionError (Float × Cursor)
  | factor => parseFactor env depth
  | term => parseTerm env depth
  | sum => parseSum env depth

theorem walk_extends (phrase : Phrase) (calls : Nat) :
    Extends (phrase.walk env source calls) (phrase.walk env source (calls + 1)) := by
  cases phrase with
  | factor => exact walkFactor_extends calls
  | term => exact walkTerm_extends calls
  | sum => exact walkSum_extends calls

theorem walk_performs (phrase : Phrase) {calls : Nat} {p : Passage} {c : Cursor}
    (h : p.Stands source c) (hn : 5 * c.text.length + 4 < calls) :
    Performs source (phrase.walk env source calls) p (phrase.parse env p.head.depth c) := by
  cases phrase with
  | factor => exact walkFactor_performs calls p c h (by omega)
  | term => exact walkTerm_performs calls p c h (by omega)
  | sum => exact walkSum_performs calls p c h hn

theorem parse_beyond (phrase : Phrase) {depth : Nat} {c : Cursor} {r : Float × Cursor}
    (h : (phrase.parse env depth c).result = .ok r) : r.2.text.length < c.text.length := by
  cases phrase with
  | factor => exact parseFactor_beyond h
  | term => exact parseTerm_beyond h
  | sum => exact parseSum_beyond h

end Phrase

/-- How many calls may be open at once over a text. It is linear in the length of the text. -/
def enoughCalls (source : List Char) : Nat := 5 * (source.length + 1)

theorem Cursor.Within.calls_lt {c : Cursor} (h : c.Within source) :
    5 * c.text.length + 4 < enoughCalls source := by
  obtain ⟨before, rfl, -⟩ := h
  rw [enoughCalls, List.length_append]
  omega

/-- Reading a phrase comes to an outcome, and a phrase that was read takes some of the text. -/
theorem Phrase.walk_onward (env : Environment) (phrase : Phrase) {p : Passage}
    (hp : p.Sound source) : ∃ result p',
      (∀ calls ≥ enoughCalls source, phrase.walk env source calls p = some (result, p')) ∧
      p'.Sound source ∧ p.heads <:+ p'.heads ∧ p'.head.depth = p.head.depth ∧
      ∀ x, result = .ok x → p.head.position < p'.head.position := by
  obtain ⟨c, h⟩ := hp.exists_cursor
  have hphrase : Performs source (phrase.walk env source (enoughCalls source)) p
    (phrase.parse env p.head.depth c) := phrase.walk_performs h h.within.calls_lt
  obtain ⟨c', p', hwalk, hreaches, hend⟩ := hphrase
  refine ⟨_, p', fun calls hcalls => Extends.of_le phrase.walk_extends hcalls p _ hwalk,
    hreaches.stands.sound, hreaches.heads, hreaches.depth, ?_⟩
  intro x hx
  cases hr : (phrase.parse env p.head.depth c).result with
  | error e =>
    rw [hr] at hx
    cases hx
  | ok r =>
    have hlt := phrase.parse_beyond hr
    rw [hend r hr] at hlt
    rw [h.position, hreaches.stands.position]
    exact h.within.position_lt hreaches.stands.within hlt

/-- What the descent finds in a whole text, with the cursor. -/
def parseWhole (env : Environment) (source : List Char) :
    Logged ExpressionError (Float × Cursor) :=
  (parseSum env 0 ⟨0, source⟩).bind fun r =>
    match r.2.text with
    | [] => .value r
    | ch :: _ => .error (.trailingInput ch r.2.position)

theorem parse_eq_parseWhole (env : Environment) (source : List Char) :
    parse env source = (parseWhole env source).bind fun r => .value r.1 := by
  rw [parse, parseWhole, Logged.bind_assoc]
  congr 1
  funext r
  cases r.2.text with
  | nil => rfl
  | cons ch rest => rfl

theorem walkWhole_performs (env : Environment) (source : List Char) :
    Performs source (walkWhole env source (enoughCalls source)) (.start source)
      (parseWhole env source) := by
  have hwithin : (Cursor.mk 0 source).Within source := ⟨[], rfl, rfl⟩
  have hstart : (Passage.start source).Stands source ⟨0, source⟩ :=
    ⟨.start source, hwithin, rfl, rfl⟩
  rw [walkWhole, parseWhole]
  refine (walkSum_performs _ _ _ hstart hwithin.calls_lt).bind fun x c p hx h => ?_
  refine .here h.stands ?_
  rw [h.stands.current, h.stands.position]
  dsimp only
  cases c.text with
  | nil => exact .pure h.stands x
  | cons ch rest => exact .throw h.stands _

theorem walk_eq_read (env : Environment) (source : List Char) : ∃ p,
    (∀ calls ≥ enoughCalls source,
      walk env source calls = some ((read env source).result, p)) ∧
    p.Sound source ∧ p.events = (read env source).events := by
  obtain ⟨c, p, hwalk, h, -⟩ := walkWhole_performs env source
  rw [← parse_eq_read, parse_eq_parseWhole, Logged.bind_map]
  exact ⟨p, fun calls hcalls => Extends.of_le walkWhole_extends hcalls _ _ hwalk,
    h.stands.sound, h.events⟩

/-- Whatever the text, the walk over it ends with a linear number of calls, no cut on the way is
impossible, and its value or error and its events are those of the reader. All places that it visits
are in bounds and in order. From any such passage on each function for a phrase comes to an outcome
in the same way. When it finds a value it is further on, and as many factors are open as before. -/
theorem walk_progresses (env : Environment) (source : List Char) :
    (∃ p,
      (∀ calls ≥ enoughCalls source,
        walk env source calls = some ((read env source).result, p)) ∧
      p.Sound source ∧ p.events = (read env source).events) ∧
    ∀ (phrase : Phrase) (p : Passage), p.Sound source → ∃ result p',
      (∀ calls ≥ enoughCalls source, phrase.walk env source calls p = some (result, p')) ∧
      p'.Sound source ∧ p.heads <:+ p'.heads ∧ p'.head.depth = p.head.depth ∧
      ∀ x, result = .ok x → p.head.position < p'.head.position :=
  ⟨walk_eq_read env source, fun phrase _ hp => phrase.walk_onward env hp⟩

theorem walk_progresses_two_bytes :
    (∃ p, (∀ calls ≥ 30, walk .empty "(2+é)".toList calls =
        some (.error (.unexpectedCharacter 'é' 3), p)) ∧ p.Sound "(2+é)".toList) ∧
    (Passage.start "(2+é)".toList).Sound "(2+é)".toList ∧
    ∃ result p', (∀ calls ≥ 30, Phrase.factor.walk .empty "(2+é)".toList calls
        (.start "(2+é)".toList) = some (result, p')) ∧
      p'.Sound "(2+é)".toList ∧ p'.head.depth = 0 ∧
      ∀ x, result = .ok x → 0 < p'.head.position := by
  have hread : (read .empty "(2+é)".toList).result = .error (.unexpectedCharacter 'é' 3) := by
    decide +kernel
  have hcalls : enoughCalls "(2+é)".toList = 30 := by decide
  have hstart := Passage.Sound.start "(2+é)".toList
  obtain ⟨⟨p, hwalk, hp, -⟩, hphrases⟩ := walk_progresses .empty "(2+é)".toList
  obtain ⟨result, p', hfactor, hp', -, hdepth, honward⟩ := hphrases .factor _ hstart
  rw [hread, hcalls] at hwalk
  rw [hcalls] at hfactor
  exact ⟨⟨p, hwalk, hp⟩, hstart, result, p', hfactor, hp', hdepth, honward⟩

end LineCalculator.Expression
