import Mathlib.Data.List.TakeWhile
import Vitae.Markup.Document
import Vitae.Proofs.Markup.References

/-!
# Writing elements

A way to write elements down that has only one reading: on one line, with names that are not
qualified, at most one attribute each, and all values made of references.

* `startTag`, `endTag`, `writeElement`: the written form.
* `qname_append`, `opening_append`, `endTag_append`, `characters_append`: **what readers of names, tags
  and texts make of it**, whatever follows.
-/

namespace Vitae.Markup

variable {name : String} {x : Char} {word tail : List Char} {pos : Position} {att : Option (String × String)}

/-! ## The written form -/

/-- A name that is read as it is written, since it has no qualifier. -/
def IsPlainName (name : String) : Prop :=
  startsName name.toList ∧ ∀ c ∈ name.toList, isNameChar c ∧ c ≠ ':'

instance (name : String) : Decidable (IsPlainName name) :=
  decidable_of_iff (startsName name.toList && name.toList.all fun c => isNameChar c && c != ':') (by
    simp [IsPlainName])

/-- An attribute with the blank before it. -/
def writeAttribute (a : String × String) : List Char :=
  ' ' :: (a.1.toList ++ ('=' :: '\"' :: (refer a.2.toList ++ ['\"'])))

def startTag (name : String) (att : Option (String × String)) : List Char :=
  '<' :: (name.toList ++ ((att.map writeAttribute).getD [] ++ ['>']))

def endTag (name : String) : List Char := '<' :: '/' :: (name.toList ++ ['>'])

/-- An element with what stands between its tags. -/
def writeElement (name : String) (att : Option (String × String)) (body : List Char) : List Char :=
  startTag name att ++ (body ++ endTag name)

/-- The tag that a start tag on the first line gives. -/
def writtenTag (name : String) (att : Option (String × String)) : Tag where
  space := none
  name := name
  attributes := att.toList.map fun a => ⟨none, a.1, a.2⟩
  line := 1

/-- An attribute that is read as it is written: no declaration, and of legal characters. -/
def IsPlainAttribute (a : String × String) : Prop :=
  IsPlainName a.1 ∧ a.1 ≠ "xmlns" ∧ ∀ c ∈ a.2.toList, isLegal c

namespace Reader

variable {α β σ : Type}

/-! ## Steps of readers -/

theorem bind_of_ok {m : Reader α} {f : α → Reader β} {c d : Cursor} {a : α} (h : m c = .ok (a, d)) :
    (m >>= f) c = f a d := by
  show (m c >>= fun x => f x.1 x.2) = f a d
  rw [h]
  rfl

/-- A loop goes by what its step comes to. -/
theorem repeatUntil_eq (step : σ → Reader (σ ⊕ β)) (moves : ∀ s, Moves (·.isLeft) (step s)) (s : σ) (c : Cursor) :
    repeatUntil step moves s c = match step s c with
      | .error e => .error e
      | .ok (.inr b, d) => .ok (b, d)
      | .ok (.inl t, d) => repeatUntil step moves t d := by
  rw [repeatUntil]
  split <;> rename_i heq <;> rw [heq]

theorem repeatUntil_inl {step : σ → Reader (σ ⊕ β)} {moves : ∀ s, Moves (·.isLeft) (step s)} {s t : σ}
    {c d : Cursor} (h : step s c = .ok (.inl t, d)) :
    repeatUntil step moves s c = repeatUntil step moves t d := by
  rw [repeatUntil_eq, h]

theorem repeatUntil_inr {step : σ → Reader (σ ⊕ β)} {moves : ∀ s, Moves (·.isLeft) (step s)} {s : σ} {b : β}
    {c d : Cursor} (h : step s c = .ok (.inr b, d)) : repeatUntil step moves s c = .ok (b, d) := by
  rw [repeatUntil_eq, h]

theorem repeatUntil_error {step : σ → Reader (σ ⊕ β)} {moves : ∀ s, Moves (·.isLeft) (step s)} {s : σ}
    {c : Cursor} {e : Error} (h : step s c = .error e) : repeatUntil step moves s c = .error e := by
  rw [repeatUntil_eq, h]

theorem skip_append : (⟨word ++ tail, pos⟩ : Cursor).skip word.length = ⟨tail, pos.after word⟩ := by
  unfold Cursor.skip
  rw [List.drop_left, List.take_left]

theorem takeWhile_append {p : Char → Bool} (hword : ∀ c ∈ word, p c) (hx : p x = false) :
    takeWhile p ⟨word ++ x :: tail, pos⟩ = .ok (word, ⟨x :: tail, pos.after word⟩) := by
  unfold takeWhile
  simp only
  rw [Text.takeWhile_word hword rfl hx, skip_append]

/-- No blanks come next. -/
theorem spaces_none (h : tail.head? = some x) (hx : isSpace x = false) :
    spaces ⟨tail, pos⟩ = .ok (false, ⟨tail, pos⟩) := by
  obtain ⟨rest, rfl⟩ := List.head?_eq_some_iff.1 h
  have hnone : ∀ c ∈ ([] : List Char), isSpace c := fun c hc => absurd hc List.not_mem_nil
  have htake : takeWhile isSpace ⟨x :: rest, pos⟩ = .ok ([], ⟨x :: rest, pos⟩) := takeWhile_append hnone hx
  unfold spaces
  rw [bind_of_ok htake]
  rfl

/-- One blank comes next. -/
theorem spaces_one (h : tail.head? = some x) (hx : isSpace x = false) :
    spaces ⟨' ' :: tail, pos⟩ = .ok (true, ⟨tail, pos.after [' ']⟩) := by
  obtain ⟨rest, rfl⟩ := List.head?_eq_some_iff.1 h
  have hblank : ∀ c ∈ [' '], isSpace c := List.forall_mem_singleton.2 rfl
  have htake : takeWhile isSpace ⟨' ' :: x :: rest, pos⟩ = .ok ([' '], ⟨x :: rest, pos.after [' ']⟩) :=
    takeWhile_append hblank hx
  unfold spaces
  rw [bind_of_ok htake]
  rfl

theorem accept_append (word : String) :
    accept word ⟨word.toList ++ tail, pos⟩ = .ok (true, ⟨tail, pos.after word.toList⟩) := by
  have hword : word.toList.isPrefixOf (word.toList ++ tail) := by
    rw [List.isPrefixOf_iff_prefix]
    exact List.prefix_append _ _
  unfold accept
  simp only
  rw [if_pos hword, skip_append]

/-- A word does not come next if another character does than it begins with. -/
theorem isPrefixOf_eq_false {word : List Char} {w : Char} (hw : word.head? = some w) (h : tail.head? = some x)
    (hx : x ≠ w) : word.isPrefixOf tail = false := by
  obtain ⟨word, rfl⟩ := List.head?_eq_some_iff.1 hw
  obtain ⟨rest, rfl⟩ := List.head?_eq_some_iff.1 h
  rw [List.isPrefixOf_cons_cons, beq_false_of_ne (Ne.symm hx), Bool.false_and]

theorem standsAt_none {word : String} (h : word.toList.isPrefixOf tail = false) :
    standsAt word ⟨tail, pos⟩ = .ok (false, ⟨tail, pos⟩) := by
  unfold standsAt
  rw [h]

theorem accept_none {word : String} (h : word.toList.isPrefixOf tail = false) :
    accept word ⟨tail, pos⟩ = .ok (false, ⟨tail, pos⟩) := by
  unfold accept
  simp only
  rw [h]
  rfl

/-- Trying a word and going on when it does not come next. -/
theorem accept_else {word : String} {yes no : Reader α} (h : word.toList.isPrefixOf tail = false) :
    (accept word >>= fun b => if b = true then yes else no) ⟨tail, pos⟩ = no ⟨tail, pos⟩ := by
  rw [bind_of_ok (accept_none h)]
  rfl

theorem consume_cons : consume x ⟨x :: tail, pos⟩ = .ok ((), ⟨tail, pos.after [x]⟩) := by
  unfold consume
  simp only [if_true]
  rfl

theorem lift_of_ok {r : Except Error α} {a : α} {c : Cursor} (h : r = .ok a) :
    (liftM r : Reader α) c = .ok (a, c) := by
  rw [h]
  rfl

/-- A word begins nowhere where its first character is not. -/
theorem lengthBefore_eq_length {w : Char} {word text : List Char} (h : w ∉ text) :
    lengthBefore (w :: word) text = text.length := by
  induction text with
  | nil => rfl
  | cons c text ih =>
    rw [List.mem_cons, not_or] at h
    have hword : (w :: word).isPrefixOf (c :: text) = false := by
      rw [List.isPrefixOf_cons_cons, beq_false_of_ne h.1, Bool.false_and]
    rw [lengthBefore, hword, ih h.2]
    rfl

theorem requireLegal_of_legal (h : ∀ c ∈ word, isLegal c) (start : Position) : requireLegal start word = .ok () := by
  have hdrop : word.dropWhile isLegal = [] := List.dropWhile_eq_nil_iff.2 h
  unfold requireLegal
  rw [hdrop]

/-! ## Names and tags -/

theorem ofChars_of_plain (h : IsPlainName name) : QName.ofChars name.toList = some ⟨"", name⟩ := by
  have hcolon : ∀ c ∈ name.toList, (c != ':') = true := fun c hc => by simpa using (h.2 c hc).2
  unfold QName.ofChars
  rw [List.takeWhile_eq_self_iff.2 hcolon, List.dropWhile_eq_nil_iff.2 hcolon]
  simp only
  rw [if_pos h.1, String.ofList_toList]

/-- A name ends where a character comes that no name has. -/
theorem qname_append (h : IsPlainName name) (hx : isNameChar x = false) :
    qname ⟨name.toList ++ x :: tail, pos⟩ = .ok (⟨"", name⟩, ⟨x :: tail, pos.after name.toList⟩) := by
  have htake : takeWhile isNameChar ⟨name.toList ++ x :: tail, pos⟩ =
      .ok (name.toList, ⟨x :: tail, pos.after name.toList⟩) :=
    takeWhile_append (fun c hc => (h.2 c hc).1) hx
  unfold qname
  rw [bind_of_ok rfl, bind_of_ok htake, ofChars_of_plain h]
  rfl

/-- What comes next where a name does. -/
theorem head?_of_plain (h : IsPlainName name) (tail : List Char) :
    ∃ c, (name.toList ++ tail).head? = some c ∧ isNameStart c := by
  have hstarts := h.1
  cases hname : name.toList with
  | nil =>
    rw [hname] at hstarts
    cases hstarts
  | cons c cs =>
    rw [hname] at hstarts
    exact ⟨c, rfl, hstarts⟩

/-- What begins a name is no character that begins none, such as those that end tags or begin
other markup. -/
theorem ne_of_isNameStart {c : Char} (h : isNameStart x) (hc : isNameStart c = false) : x ≠ c := by
  rintro rfl
  rw [h] at hc
  cases hc

theorem isSpace_of_isNameStart (h : isNameStart x) : isSpace x = false := by
  unfold isSpace
  rw [beq_false_of_ne (ne_of_isNameStart h (by decide)), beq_false_of_ne (ne_of_isNameStart h (by decide)),
    beq_false_of_ne (ne_of_isNameStart h (by decide)), beq_false_of_ne (ne_of_isNameStart h (by decide))]
  rfl

/-- No reference has a quotation mark in it, so a value ends where the attribute does. -/
theorem writtenAttribute_append {a : String × String} (h : IsPlainAttribute a) :
    writtenAttribute ⟨a.1.toList ++ ('=' :: '\"' :: (refer a.2.toList ++ '\"' :: tail)), pos⟩ =
      .ok (⟨⟨"", a.1⟩, a.2, pos⟩,
        ⟨tail, (((pos.after a.1.toList).after ['=', '\"']).after (refer a.2.toList)).after ['\"']⟩) := by
  obtain ⟨hname, -, hvalue⟩ := h
  have hequals : equalsQuote ⟨'=' :: '\"' :: (refer a.2.toList ++ '\"' :: tail), pos.after a.1.toList⟩ =
      .ok ('\"', ⟨refer a.2.toList ++ '\"' :: tail, (pos.after a.1.toList).after ['=', '\"']⟩) := by
    unfold equalsQuote
    rw [bind_of_ok (spaces_none rfl (by decide)), bind_of_ok consume_cons, bind_of_ok (spaces_none rfl (by decide))]
    rfl
  have hquote : ∀ c ∈ refer a.2.toList, (c != '\"' && c != '<') = true := by
    intro c hc
    have hne : c ≠ '\"' := fun heq => not_mem_refer (by decide) (by decide) (heq ▸ hc)
    have hne' : c ≠ '<' := fun heq => not_mem_refer (by decide) (by decide) (heq ▸ hc)
    simp [hne, hne']
  have htake : takeWhile (fun c => c != '\"' && c != '<')
      ⟨refer a.2.toList ++ '\"' :: tail, (pos.after a.1.toList).after ['=', '\"']⟩ =
        .ok (refer a.2.toList,
          ⟨'\"' :: tail, ((pos.after a.1.toList).after ['=', '\"']).after (refer a.2.toList)⟩) :=
    takeWhile_append hquote (by decide)
  have hlegal : ∀ c ∈ refer a.2.toList, isLegal c := fun c hc => isLegal_of_mem_refer hc
  unfold writtenAttribute
  rw [bind_of_ok rfl, bind_of_ok (qname_append hname (by decide)), bind_of_ok hequals, bind_of_ok rfl,
    bind_of_ok htake, bind_of_ok rfl, if_neg (by simp)]
  dsimp only
  rw [bind_of_ok (lift_of_ok (requireLegal_of_legal hlegal _)), bind_of_ok consume_cons,
    bind_of_ok (lift_of_ok (attributeValue_refer hvalue _))]
  rfl

theorem tagStep_attribute {a : String × String} (h : IsPlainAttribute a) (d : Draft) :
    tagStep d ⟨writeAttribute a ++ '>' :: tail, pos⟩ =
      .ok (.inl { d with attributes := d.attributes ++ [⟨⟨"", a.1⟩, a.2, pos.after [' ']⟩] },
        ⟨'>' :: tail, pos.after (writeAttribute a)⟩) := by
  obtain ⟨c, hhead, hstart⟩ := head?_of_plain h.1 ('=' :: '\"' :: (refer a.2.toList ++ '\"' :: '>' :: tail))
  have hslash : c ≠ '/' := ne_of_isNameStart hstart (by decide)
  have hgreater : c ≠ '>' := ne_of_isNameStart hstart (by decide)
  have hspace : isSpace c = false := isSpace_of_isNameStart hstart
  have hword : writeAttribute a ++ '>' :: tail =
      ' ' :: (a.1.toList ++ ('=' :: '\"' :: (refer a.2.toList ++ '\"' :: '>' :: tail))) := by
    unfold writeAttribute
    simp only [List.cons_append, List.append_assoc, List.nil_append]
  have hadd : d.add ⟨⟨"", a.1⟩, a.2, pos.after [' ']⟩ =
      .ok { d with attributes := d.attributes ++ [⟨⟨"", a.1⟩, a.2, pos.after [' ']⟩] } := by
    have hplain : ("" : String) ≠ "xmlns" := by decide
    unfold Draft.add
    rw [if_neg hplain, if_neg h.2.1]
  have hpeek : peek ⟨a.1.toList ++ ('=' :: '\"' :: (refer a.2.toList ++ '\"' :: '>' :: tail)), pos.after [' ']⟩ =
      .ok (some c, ⟨a.1.toList ++ ('=' :: '\"' :: (refer a.2.toList ++ '\"' :: '>' :: tail)), pos.after [' ']⟩) := by
    unfold peek
    rw [hhead]
  have hpos : ((((pos.after [' ']).after a.1.toList).after ['=', '\"']).after (refer a.2.toList)).after ['\"'] =
      pos.after (writeAttribute a) := by
    unfold writeAttribute
    simp only [Position.after_append, Position.after_cons, Position.after_nil]
  rw [hword]
  unfold tagStep
  rw [bind_of_ok rfl, if_neg (by simp), bind_of_ok (spaces_one hhead hspace), bind_of_ok hpeek]
  -- what begins a name ends no tag, so the match comes down to its last case
  simp only [if_true]
  rw [bind_of_ok (writtenAttribute_append h), bind_of_ok (lift_of_ok hadd), hpos]
  rfl

theorem tagStep_end (d : Draft) :
    tagStep d ⟨'>' :: tail, pos⟩ = .ok (.inr (d, .opened), ⟨tail, pos.after ['>']⟩) := by
  unfold tagStep
  rw [bind_of_ok rfl, if_neg (by simp), bind_of_ok (spaces_none rfl (by decide)), bind_of_ok rfl]
  show (consume '>' >>= fun _ => pure (Sum.inr (d, TagEnd.opened))) _ = _
  rw [bind_of_ok consume_cons]
  rfl

theorem tagSteps_append (h : ∀ a ∈ att, IsPlainAttribute a) :
    repeatUntil tagStep moves_tagStep {} ⟨(att.map writeAttribute).getD [] ++ '>' :: tail, pos⟩ =
      .ok (({ attributes := att.toList.map fun a => ⟨⟨"", a.1⟩, a.2, pos.after [' ']⟩ }, .opened),
        ⟨tail, (pos.after ((att.map writeAttribute).getD [])).after ['>']⟩) := by
  cases att with
  | none => exact repeatUntil_inr (tagStep_end _)
  | some a =>
    rw [Option.map_some, Option.getD_some, repeatUntil_inl (tagStep_attribute (h a rfl) {})]
    exact repeatUntil_inr (tagStep_end _)

/-- What a start tag says after its `<`. -/
theorem opening_append (hname : IsPlainName name) (h : ∀ a ∈ att, IsPlainAttribute a) :
    opening [] 1 ⟨name.toList ++ ((att.map writeAttribute).getD [] ++ '>' :: tail), pos⟩ =
      .ok (some ⟨⟨"", name⟩, writtenTag name att, [], false⟩,
        ⟨tail, ((pos.after name.toList).after ((att.map writeAttribute).getD [])).after ['>']⟩) := by
  have hqname : qname ⟨name.toList ++ ((att.map writeAttribute).getD [] ++ '>' :: tail), pos⟩ =
      .ok (⟨"", name⟩, ⟨(att.map writeAttribute).getD [] ++ '>' :: tail, pos.after name.toList⟩) := by
    cases att with
    | none => exact qname_append hname (by decide)
    | some a => exact qname_append hname (by decide)
  -- at most one attribute and no qualifier: no check of the tag has anything to refuse
  have htag : Draft.tag
      { attributes := att.toList.map fun a => ⟨⟨"", a.1⟩, a.2, (pos.after name.toList).after [' ']⟩ }
      [] ⟨"", name⟩ pos 1 = .ok (writtenTag name att) := by
    cases att <;> rfl
  unfold opening
  rw [bind_of_ok rfl, bind_of_ok hqname, if_neg (by simp), bind_of_ok (tagSteps_append h)]
  simp only
  rw [if_neg (by simp)]
  simp only [List.append_nil]
  rw [bind_of_ok (lift_of_ok htag)]
  rfl

theorem endTag_append (hname : IsPlainName name) :
    Reader.endTag ⟨name.toList ++ '>' :: tail, pos⟩ =
      .ok (⟨"", name⟩, ⟨tail, (pos.after name.toList).after ['>']⟩) := by
  unfold Reader.endTag
  rw [bind_of_ok (qname_append hname (by decide)), bind_of_ok (spaces_none rfl (by decide)), bind_of_ok consume_cons]
  rfl

/-! ## Content -/

/-- A text ends where the next tag begins. -/
theorem characters_append {s : String} (h : ∀ c ∈ s.toList, isLegal c) {rest : List Char}
    (hs : refer s.toList = '&' :: rest) (start : Position) :
    characters start '&' ⟨rest ++ '<' :: tail, pos⟩ = .ok (s, ⟨'<' :: tail, pos.after rest⟩) := by
  have hmem : ∀ c ∈ rest, c ∈ refer s.toList := fun c hc => hs ▸ List.mem_cons_of_mem _ hc
  have hless : ∀ c ∈ rest, (c != '<') = true := by
    intro c hc
    have hne : c ≠ '<' := fun heq => not_mem_refer (by decide) (by decide) (heq ▸ hmem c hc)
    simp [hne]
  have hlegal : ∀ c ∈ rest, isLegal c := fun c hc => isLegal_of_mem_refer (hmem c hc)
  have hwhile : legalWhile (· != '<') ⟨rest ++ '<' :: tail, pos⟩ = .ok (rest, ⟨'<' :: tail, pos.after rest⟩) := by
    unfold legalWhile
    rw [bind_of_ok rfl, bind_of_ok (takeWhile_append hless (by decide)),
      bind_of_ok (lift_of_ok (requireLegal_of_legal hlegal _))]
    rfl
  have hbracket : lengthBefore [']', ']', '>'] ('&' :: rest) = ('&' :: rest).length := by
    rw [← hs]
    exact lengthBefore_eq_length (not_mem_refer (by decide) (by decide))
  unfold characters
  rw [bind_of_ok (lift_of_ok (requireLegal_of_legal (List.forall_mem_singleton.2 rfl) start)), bind_of_ok hwhile, hbracket,
    if_neg (Nat.lt_irrefl _), ← hs]
  exact lift_of_ok (textValue_refer h start)

end Reader

end Vitae.Markup
