import Vitae.Markup.Error

/-!
# Readers

A reader takes characters off a cursor and gives a value, or stops with an error.

* `Moves q m`: when `m` succeeds it has only moved its cursor on, and by at least one
  character if its value has the property `q`. Each reader below has such a lemma.
* `repeatUntil`: runs a step until it gives a result. It ends because a step that
  asks for another one has moved on.
-/

namespace Vitae.Markup

/-- Takes characters off a cursor, or fails. -/
abbrev Reader := StateT Cursor (Except Error)

namespace Reader

variable {α β σ : Type} {q : α → Prop} {r : β → Prop}

/-- **What a success does to the cursor**: it is moved on, by one character or more if
`q` holds of the value. -/
def Moves (q : α → Prop) (m : Reader α) : Prop :=
  ∀ c a d, m c = .ok (a, d) → ∃ n ≤ c.rest.length, d = c.skip n ∧ (q a → 0 < n)

/-- A success leaves the cursor moved on. -/
abbrev Tracks (m : Reader α) : Prop := Moves (fun _ => False) m

/-- A success leaves the cursor moved on by one character or more. -/
abbrev Advances (m : Reader α) : Prop := Moves (fun _ => True) m

theorem bind_eq_ok {m : Reader α} {f : α → Reader β} {c : Cursor} {p : β × Cursor} :
    (m >>= f) c = .ok p ↔ ∃ a d, m c = .ok (a, d) ∧ f a d = .ok p := by
  show (m c >>= fun x => f x.1 x.2) = .ok p ↔ _
  cases m c with
  | error e => simp [bind, Except.bind]
  | ok x =>
    refine ⟨fun h => ⟨x.1, x.2, rfl, h⟩, ?_⟩
    rintro ⟨a, d, h, e⟩
    cases h
    exact e

theorem Moves.mono {q' : α → Prop} {m : Reader α} (h : Moves q m) (imp : ∀ a, q' a → q a) :
    Moves q' m := fun c a d e =>
  let ⟨n, hn, hd, hq⟩ := h c a d e
  ⟨n, hn, hd, fun ha => hq (imp a ha)⟩

theorem Moves.tracks {m : Reader α} (h : Moves q m) : Tracks m := h.mono fun _ => False.elim

theorem moves_pure {a : α} (h : ¬ q a) : Moves q (pure a : Reader α) := by
  intro c b d e
  replace e : (Except.ok (a, c) : Except Error _) = .ok (b, d) := e
  cases e
  exact ⟨0, Nat.zero_le _, rfl, fun ha => absurd ha h⟩

theorem tracks_pure (a : α) : Tracks (pure a : Reader α) := moves_pure id

theorem moves_throw (e : Error) : Moves q (throw e : Reader α) := by
  intro c a d h
  cases h

theorem moves_lift {x : Except Error α} (h : ∀ a, x = .ok a → ¬ q a) :
    Moves q (liftM x : Reader α) := by
  intro c a d e
  cases x with
  | error err => cases e
  | ok b =>
    replace e : (Except.ok (b, c) : Except Error _) = .ok (a, d) := e
    cases e
    exact ⟨0, Nat.zero_le _, rfl, fun ha => absurd ha (h _ rfl)⟩

theorem tracks_lift (x : Except Error α) : Tracks (liftM x : Reader α) :=
  moves_lift fun _ _ => id

/-- A bind moves on if, value by value, its first or its second part does. -/
theorem Moves.bind {m : Reader α} {f : α → Reader β} (hm : Moves q m)
    (hf : ∀ a, ∃ s : β → Prop, Moves s (f a) ∧ ∀ b, r b → q a ∨ s b) : Moves r (m >>= f) := by
  intro c b d e
  obtain ⟨a, c', e₁, e₂⟩ := bind_eq_ok.1 e
  obtain ⟨s, hs, imp⟩ := hf a
  -- the first part moves on by `n` characters and the second by `k`
  obtain ⟨n, hn, rfl, hqn⟩ := hm c a c' e₁
  obtain ⟨k, hk, rfl, hsk⟩ := hs _ b d e₂
  rw [Cursor.length_rest_skip] at hk
  refine ⟨n + k, by omega, Cursor.skip_skip c n k, fun hb => ?_⟩
  rcases imp b hb with ha | hb'
  · have := hqn ha; omega
  · have := hsk hb'; omega

theorem Tracks.bind {m : Reader α} {f : α → Reader β} (hm : Tracks m)
    (hf : ∀ a, Moves r (f a)) : Moves r (m >>= f) :=
  Moves.bind hm fun a => ⟨r, hf a, fun _ => Or.inr⟩

theorem Advances.bind {m : Reader α} {f : α → Reader β} (hm : Advances m)
    (hf : ∀ a, Tracks (f a)) : Moves r (m >>= f) :=
  Moves.bind hm fun a => ⟨_, hf a, fun _ _ => Or.inl trivial⟩

/-! ### Looking -/

def position : Reader Position := fun c => .ok (c.pos, c)

def atEnd : Reader Bool := fun c => .ok (c.rest.isEmpty, c)

/-- The next character, if there is one. -/
def peek : Reader (Option Char) := fun c => .ok (c.rest.head?, c)

/-- Whether a word comes next. -/
def standsAt (word : String) : Reader Bool := fun c => .ok (word.toList.isPrefixOf c.rest, c)

theorem tracks_position : Tracks position := by
  rintro c a d ⟨⟩; exact ⟨0, Nat.zero_le _, rfl, False.elim⟩

theorem tracks_atEnd : Tracks atEnd := by
  rintro c a d ⟨⟩; exact ⟨0, Nat.zero_le _, rfl, False.elim⟩

theorem tracks_peek : Tracks peek := by
  rintro c a d ⟨⟩; exact ⟨0, Nat.zero_le _, rfl, False.elim⟩

theorem tracks_standsAt (word : String) : Tracks (standsAt word) := by
  rintro c a d ⟨⟩; exact ⟨0, Nat.zero_le _, rfl, False.elim⟩

/-! ### Failing -/

/-- Fails at a position. -/
def failAt (pos : Position) (fault : Fault) : Reader α := throw (.located pos fault)

/-- Fails where the cursor stands. -/
def fail (fault : Fault) : Reader α := position >>= fun pos => failAt pos fault

theorem moves_failAt (pos : Position) (fault : Fault) : Moves q (failAt pos fault : Reader α) :=
  moves_throw _

theorem moves_fail (fault : Fault) : Moves q (fail fault : Reader α) :=
  tracks_position.bind fun _ => moves_failAt _ _

/-! ### Taking -/

/-- Takes the next character, if there is one. -/
def next : Reader (Option Char) := fun c => .ok (c.rest.head?, c.skip 1)

/-- Takes a word if it comes next, and tells whether it did. -/
def accept (word : String) : Reader Bool := fun c =>
  if word.toList.isPrefixOf c.rest then .ok (true, c.skip word.toList.length) else .ok (false, c)

/-- Takes characters for as long as they have a property. -/
def takeWhile (p : Char → Bool) : Reader (List Char) := fun c =>
  .ok (c.rest.takeWhile p, c.skip (c.rest.takeWhile p).length)

/-- How many characters stand before the first place where a word begins; all, if
it begins nowhere. -/
def lengthBefore (word : List Char) : List Char → Nat
  | [] => 0
  | c :: text => if word.isPrefixOf (c :: text) then 0 else lengthBefore word text + 1

/-- Takes all before the first place where a word begins. -/
def takeBefore (word : String) : Reader (List Char) := fun c =>
  let n := lengthBefore word.toList c.rest
  .ok (c.rest.take n, c.skip n)

/-- Takes white space, and tells whether there was any. -/
def spaces : Reader Bool := do return !(← takeWhile isSpace).isEmpty

theorem moves_next : Moves (·.isSome) next := by
  rintro c a d ⟨⟩
  cases h : c.rest with
  | nil => exact ⟨0, Nat.zero_le _, by simp [Cursor.skip, h], by simp⟩
  | cons x text => exact ⟨1, by simp, rfl, fun _ => Nat.one_pos⟩

theorem moves_accept {word : String} (h : word ≠ "") : Moves (· = true) (accept word) := by
  intro c a d e
  by_cases hw : word.toList.isPrefixOf c.rest = true
  · obtain ⟨rfl, rfl⟩ : true = a ∧ c.skip word.toList.length = d := by simpa [accept, hw] using e
    obtain ⟨text, ht⟩ := List.isPrefixOf_iff_prefix.1 hw
    refine ⟨word.toList.length, by rw [← ht]; simp, rfl, fun _ => ?_⟩
    -- only the empty word can be taken without moving on
    exact List.length_pos_iff.2 fun hn => h (String.toList_inj.1 hn)
  · obtain ⟨rfl, rfl⟩ : false = a ∧ c = d := by simpa [accept, hw] using e
    exact ⟨0, Nat.zero_le _, rfl, by simp⟩

theorem tracks_takeWhile (p : Char → Bool) : Tracks (takeWhile p) := by
  rintro c a d ⟨⟩
  exact ⟨_, (List.takeWhile_sublist p).length_le, rfl, False.elim⟩

theorem lengthBefore_le (word text : List Char) : lengthBefore word text ≤ text.length := by
  induction text with
  | nil => exact Nat.le_refl 0
  | cons c text ih =>
    simp only [lengthBefore, List.length_cons]
    split <;> omega

theorem tracks_takeBefore (word : String) : Tracks (takeBefore word) := by
  rintro c a d ⟨⟩
  exact ⟨_, lengthBefore_le _ _, rfl, False.elim⟩

theorem tracks_spaces : Tracks spaces :=
  (tracks_takeWhile _).bind fun _ => tracks_pure _

/-! ### Demanding -/

/-- Takes one character, which has to be the given one. -/
def consume (expected : Char) : Reader Unit := fun c =>
  match c.rest with
  | [] => .error .endOfStream
  | found :: _ =>
    if found = expected then .ok ((), c.skip 1)
    else .error (.located c.pos (.expectedChar expected found))

/-- Takes a word, which has to come next. -/
def demand (word : String) : Reader Unit := do
  if ← accept word then pure () else fail (.expectedWord word)

/-- Takes a quotation mark of either kind and gives it. -/
def quotation : Reader Char := fun c =>
  match c.rest with
  | [] => .error .endOfStream
  | found :: _ =>
    if found = '\'' || found = '\"' then .ok (found, c.skip 1)
    else .error (.located c.pos (.expectedQuote found))

/-- Every character of a word that begins at a position has to be legal. -/
def requireLegal (start : Position) (word : List Char) : Except Error Unit :=
  match word.dropWhile isLegal with
  | [] => .ok ()
  | c :: _ => .error (.located (start.after (word.takeWhile isLegal)) (.illegalChar c))

/-- Takes all before the first place where a word begins; all of it has to be legal. -/
def legalBefore (word : String) : Reader (List Char) := do
  let start ← position
  let text ← takeBefore word
  requireLegal start text
  return text

/-- Takes legal characters for as long as they have a property. -/
def legalWhile (p : Char → Bool) : Reader (List Char) := do
  let start ← position
  let text ← takeWhile p
  requireLegal start text
  return text

theorem advances_consume (expected : Char) : Advances (consume expected) := by
  intro c a d e
  unfold consume at e
  split at e
  · cases e
  · rename_i found text h
    split at e <;> cases e
    exact ⟨1, by simp [h], rfl, fun _ => Nat.one_pos⟩

theorem tracks_demand {word : String} (h : word ≠ "") : Tracks (demand word) :=
  (moves_accept h).tracks.bind fun b => by
    cases b
    · exact moves_fail _
    · exact tracks_pure _

theorem advances_quotation : Advances quotation := by
  intro c a d e
  unfold quotation at e
  split at e
  · cases e
  · rename_i found text h
    split at e <;> cases e
    exact ⟨1, by simp [h], rfl, fun _ => Nat.one_pos⟩

theorem tracks_legalBefore (word : String) : Tracks (legalBefore word) :=
  tracks_position.bind fun _ => (tracks_takeBefore _).bind fun _ =>
    (tracks_lift _).bind fun _ => tracks_pure _

theorem tracks_legalWhile (p : Char → Bool) : Tracks (legalWhile p) :=
  tracks_position.bind fun _ => (tracks_takeWhile _).bind fun _ =>
    (tracks_lift _).bind fun _ => tracks_pure _

/-! ### Repeating -/

/-- Runs a step from a state until it gives a result. A step that gives a new state
instead has moved on. -/
def repeatUntil (step : σ → Reader (σ ⊕ β)) (moves : ∀ s, Moves (·.isLeft) (step s)) (s : σ)
    (c : Cursor) : Except Error (β × Cursor) :=
  match _h : step s c with
  | .error err => .error err
  | .ok (.inr b, d) => .ok (b, d)
  | .ok (.inl t, d) => repeatUntil step moves t d
termination_by c.rest.length
decreasing_by
  -- the step asked for another one, so it has taken a character
  obtain ⟨n, hn, rfl, hp⟩ := moves s c _ _ _h
  have := hp rfl
  rw [Cursor.length_rest_skip]
  omega

theorem tracks_repeatUntil {step : σ → Reader (σ ⊕ β)} (moves : ∀ s, Moves (·.isLeft) (step s))
    (s : σ) : Tracks (repeatUntil step moves s) := by
  intro c b d e
  fun_induction repeatUntil step moves s c with
  | case1 => cases e
  | case2 s c b' d' h =>
    cases e
    exact (moves s).tracks c _ _ h
  | case3 s c t d' h ih =>
    obtain ⟨k, hk, rfl, -⟩ := ih e
    obtain ⟨n, hn, rfl, -⟩ := moves s c _ _ h
    rw [Cursor.length_rest_skip] at hk
    exact ⟨n + k, by omega, Cursor.skip_skip c n k, False.elim⟩

end Reader

end Vitae.Markup
