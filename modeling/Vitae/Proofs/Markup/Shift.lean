import Mathlib.Data.Nat.Notation
import Vitae.Proofs.Markup.Writing

/-!
# Readers and rows

Readers compute with positions but do not look at them: from a cursor some rows further down a
reader takes the same characters and comes to the same value or error, with all positions in it as
many rows further down and in the same columns.

* `Position.shift`, `Error.shift`: moved down by some rows.
* `Shifts`: two readers of which the second does from further down what the first does, closed
  under sequencing and repetition.
* `shifts_repeatUntil`: **what one step does from further down, a loop does.**
-/

namespace Vitae.Markup

variable {α α' β β' σ σ' : Type} (n : ℕ)

/-! ## Moving down -/

/-- A position some rows further down, in the same column. -/
def Position.shift (p : Position) : Position := { p with row := p.row + n }

/-- A cursor some rows further down, on the same text. -/
def Cursor.shift (c : Cursor) : Cursor := { c with pos := c.pos.shift n }

/-- An error some rows further down, if it has a position. -/
def Error.shift : Error → Error
  | .located pos fault => .located (pos.shift n) fault
  | e => e

/-- An outcome some rows further down, with what is to be done to a value. -/
def shifted (f : α → β) : Except Error α → Except Error β
  | .ok a => .ok (f a)
  | .error e => .error (e.shift n)

variable {n} {f : α → α'} {g : β → β'}

theorem shift_next (p : Position) (c : Char) : (p.shift n).next c = (p.next c).shift n := by
  unfold Position.next Position.shift
  by_cases hc : c = '\n'
  · rw [if_pos hc, if_pos hc]
    simp only [Position.mk.injEq, and_true]
    omega
  · rw [if_neg hc, if_neg hc]

theorem shift_after (p : Position) (word : List Char) : (p.shift n).after word = (p.after word).shift n := by
  induction word generalizing p with
  | nil => rfl
  | cons c word ih => rw [Position.after_cons, Position.after_cons, shift_next, ih]

theorem shift_skip (c : Cursor) (k : ℕ) : (c.shift n).skip k = (c.skip k).shift n := by
  unfold Cursor.skip Cursor.shift
  rw [shift_after]

/-- What comes first moves down, so what comes after it does. -/
theorem shifted_bind {x : Except Error α} {x' : Except Error α'} {k : α → Except Error β}
    {k' : α' → Except Error β'} (hx : x' = shifted n f x) (hk : ∀ a, k' (f a) = shifted n g (k a)) :
    (x' >>= k') = shifted n g (x >>= k) := by
  subst hx
  cases x with
  | error e => rfl
  | ok a => exact hk a

theorem shifted_mapError (pos : Position) (f : α → α') (x : Except Fault α) :
    (x.map f).mapError (.located (pos.shift n)) = shifted n f (x.mapError (.located pos)) := by
  cases x <;> rfl

theorem shifted_ite {p : Prop} [Decidable p] {x y : Except Error α} {x' y' : Except Error α'}
    (hx : x' = shifted n f x) (hy : y' = shifted n f y) :
    (if p then x' else y') = shifted n f (if p then x else y) := by
  rw [hx, hy, apply_ite (shifted n f)]

/-! ## Readers -/

namespace Reader

variable {m : Reader α} {m' : Reader α'}

/-- **What a reader does from further down**: it takes the same characters and comes to the same
value or error, further down. -/
def Shifts (n : ℕ) (f : α → α') (m : Reader α) (m' : Reader α') : Prop :=
  ∀ c, m' (c.shift n) = shifted n (Prod.map f (Cursor.shift n)) (m c)

/-- A reader whose value does not show the row. -/
abbrev Blind (n : ℕ) (m : Reader α) : Prop := Shifts n id m m

theorem Shifts.bind {k : α → Reader β} {k' : α' → Reader β'} (hm : Shifts n f m m')
    (hk : ∀ a, Shifts n g (k a) (k' (f a))) : Shifts n g (m >>= k) (m' >>= k') := by
  intro c
  exact shifted_bind (hm c) fun p => hk p.1 p.2

theorem Blind.bind {m : Reader α} {k : α → Reader β} {k' : α → Reader β'} (hm : Blind n m)
    (hk : ∀ a, Shifts n g (k a) (k' a)) : Shifts n g (m >>= k) (m >>= k') := Shifts.bind hm hk

theorem shifts_pure {a : α} {a' : α'} (h : a' = f a) : Shifts n f (pure a) (pure a') := by
  intro c
  subst h
  rfl

theorem blind_pure (a : α) : Blind n (pure a : Reader α) := shifts_pure rfl

theorem shifts_throw (f : α → α') (e : Error) : Shifts n f (throw e) (throw (e.shift n)) := fun _ => rfl

theorem shifts_lift {x : Except Error α} {x' : Except Error α'} (h : x' = shifted n f x) :
    Shifts n f (liftM x : Reader α) (liftM x') := by
  intro c
  subst h
  cases x <;> rfl

theorem shifts_ite {p : Prop} [Decidable p] {x y : Reader α} {x' y' : Reader α'} (hx : Shifts n f x x')
    (hy : Shifts n f y y') : Shifts n f (if p then x else y) (if p then x' else y') := by
  by_cases hp : p
  · rw [if_pos hp, if_pos hp]
    exact hx
  · rw [if_neg hp, if_neg hp]
    exact hy

theorem shifts_position : Shifts n (Position.shift n) position position := fun _ => rfl

theorem blind_atEnd : Blind n atEnd := fun _ => rfl

theorem blind_peek : Blind n peek := fun _ => rfl

theorem blind_standsAt (word : String) : Blind n (standsAt word) := fun _ => rfl

theorem shifts_failAt (f : α → α') (pos : Position) (fault : Fault) :
    Shifts n f (failAt pos fault) (failAt (pos.shift n) fault) := shifts_throw f _

theorem shifts_fail (f : α → α') (fault : Fault) : Shifts n f (fail fault) (fail fault) :=
  shifts_position.bind fun _ => shifts_failAt f _ _

theorem blind_next : Blind n next := by
  intro c
  unfold next
  rw [shift_skip]
  rfl

theorem blind_accept (word : String) : Blind n (accept word) := by
  intro c
  unfold accept
  rw [shift_skip]
  by_cases hword : word.toList.isPrefixOf c.rest = true
  · have hword' : word.toList.isPrefixOf (c.shift n).rest = true := hword
    rw [if_pos hword, if_pos hword']
    rfl
  · have hword' : ¬ word.toList.isPrefixOf (c.shift n).rest = true := hword
    rw [if_neg hword, if_neg hword']
    rfl

theorem blind_takeWhile (p : Char → Bool) : Blind n (takeWhile p) := by
  intro c
  unfold takeWhile
  rw [shift_skip]
  rfl

theorem blind_takeBefore (word : String) : Blind n (takeBefore word) := by
  intro c
  unfold takeBefore
  simp only
  rw [shift_skip]
  rfl

theorem blind_spaces : Blind n spaces := (blind_takeWhile _).bind fun _ => blind_pure _

theorem blind_consume (expected : Char) : Blind n (consume expected) := by
  intro c
  obtain ⟨rest, pos⟩ := c
  cases rest with
  | nil => rfl
  | cons found rest =>
    unfold consume
    rw [shift_skip]
    by_cases hfound : found = expected
    · simp only [Cursor.shift, if_pos hfound]
      rfl
    · simp only [Cursor.shift, if_neg hfound]
      rfl

theorem blind_demand (word : String) : Blind n (demand word) :=
  (blind_accept word).bind fun b => by
    cases b
    · exact shifts_fail _ _
    · exact blind_pure _

theorem blind_quotation : Blind n quotation := by
  intro c
  obtain ⟨rest, pos⟩ := c
  cases rest with
  | nil => rfl
  | cons found rest =>
    unfold quotation
    rw [shift_skip]
    by_cases hfound : (found = '\'' || found = '\"') = true
    · simp only [Cursor.shift, if_pos hfound]
      rfl
    · simp only [Cursor.shift, if_neg hfound]
      rfl

theorem requireLegal_shift (start : Position) (word : List Char) :
    requireLegal (start.shift n) word = shifted n id (requireLegal start word) := by
  unfold requireLegal
  rw [shift_after]
  cases word.dropWhile isLegal <;> rfl

theorem blind_legalBefore (word : String) : Blind n (legalBefore word) :=
  shifts_position.bind fun _ => (blind_takeBefore word).bind fun _ =>
    (shifts_lift (requireLegal_shift _ _)).bind fun _ => blind_pure _

theorem blind_legalWhile (p : Char → Bool) : Blind n (legalWhile p) :=
  shifts_position.bind fun _ => (blind_takeWhile p).bind fun _ =>
    (shifts_lift (requireLegal_shift _ _)).bind fun _ => blind_pure _

/-- **A loop does from further down what its step does.** -/
theorem shifts_repeatUntil {step : σ → Reader (σ ⊕ β)} {step' : σ' → Reader (σ' ⊕ β')}
    {moves : ∀ s, Moves (·.isLeft) (step s)} {moves' : ∀ s, Moves (·.isLeft) (step' s)} {f : σ → σ'}
    (h : ∀ s, Shifts n (Sum.map f g) (step s) (step' (f s))) (s : σ) :
    Shifts n g (repeatUntil step moves s) (repeatUntil step' moves' (f s)) := by
  intro c
  -- the induction is that of the first loop; the second takes the same rounds
  fun_induction repeatUntil step moves s c with
  | case1 s c e hstep =>
    refine repeatUntil_error ?_
    rw [h s c, hstep]
    rfl
  | case2 s c b d hstep =>
    refine repeatUntil_inr ?_
    rw [h s c, hstep]
    rfl
  | case3 s c t d hstep ih =>
    refine (repeatUntil_inl ?_).trans ih
    rw [h s c, hstep]
    rfl

end Reader

end Vitae.Markup
