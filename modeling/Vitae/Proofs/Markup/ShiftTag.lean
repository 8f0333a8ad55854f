import Vitae.Proofs.Markup.Shift

/-!
# Start tags and rows

Names, values and start tags from further down: the positions in them are further down and nothing
else is changed.

* `resolve_shift`: references are resolved alike, and one that is no good is found further down.
* `Draft.tag_shift`: a tag is finished alike.
* `shifts_opening`: **a start tag from further down is the same start tag, on a line further down.**
-/

namespace Vitae.Markup

open Reader

variable {n : ℕ}

/-! ## Values -/

theorem resolveReferences_shift (pos : Position) (bodies : List (List Char)) :
    resolveReferences (pos.shift n) bodies = shifted n id (resolveReferences pos bodies) := by
  induction bodies generalizing pos with
  | nil => rfl
  | cons body more ih =>
    have hreference : (reference body).mapError (.located (pos.shift n)) =
        shifted n id ((reference body).mapError (.located pos)) := by
      rw [← shifted_mapError]
      cases reference body <;> rfl
    unfold resolveReferences
    refine shifted_bind hreference ?_
    rintro ⟨c, tail⟩
    simp only [id]
    rw [shift_next, shift_after]
    exact shifted_bind (ih _) fun _ => rfl

theorem resolve_shift (start : Position) (word : List Char) :
    resolve (start.shift n) word = shifted n id (resolve start word) := by
  unfold resolve
  simp only
  rw [shift_after]
  exact shifted_bind (resolveReferences_shift _ _) fun _ => rfl

theorem textValue_shift (start : Position) (word : List Char) :
    textValue (start.shift n) word = shifted n id (textValue start word) :=
  shifted_bind (resolve_shift start word) fun _ => rfl

theorem attributeValue_shift (start : Position) (word : List Char) :
    attributeValue (start.shift n) word = shifted n id (attributeValue start word) :=
  shifted_bind (resolve_shift start word) fun _ => rfl

/-! ## Tags -/

section

variable (n)

/-- An attribute whose start is some rows further down. -/
def WrittenAttribute.shift (a : WrittenAttribute) : WrittenAttribute := { a with start := a.start.shift n }

def Draft.shift (d : Draft) : Draft := { d with attributes := d.attributes.map (.shift n) }

/-- A tag some lines further down. -/
def Tag.shift (t : Tag) : Tag := { t with line := t.line + n }

def Opening.shift (o : Opening) : Opening := { o with tag := o.tag.shift n }

end

theorem Draft.declare_shift (d : Draft) (qualifier uri : String) :
    (d.shift n).declare qualifier uri = (d.declare qualifier uri).map (Draft.shift n) := by
  unfold Draft.declare
  simp only [apply_ite (Except.map (Draft.shift n))]
  rfl

theorem Draft.declareDefault_shift (d : Draft) (uri : String) :
    (d.shift n).declareDefault uri = (d.declareDefault uri).map (Draft.shift n) := by
  unfold Draft.declareDefault
  simp only [apply_ite (Except.map (Draft.shift n))]
  rfl

theorem Draft.add_shift (d : Draft) (a : WrittenAttribute) :
    (d.shift n).add (a.shift n) = shifted n (Draft.shift n) (d.add a) := by
  have hdeclare : ((d.shift n).declare a.name.localName a.value).mapError (.located (a.start.shift n)) =
      shifted n (Draft.shift n) ((d.declare a.name.localName a.value).mapError (.located a.start)) := by
    rw [d.declare_shift, shifted_mapError]
  have hdefault : ((d.shift n).declareDefault a.value).mapError (.located (a.start.shift n)) =
      shifted n (Draft.shift n) ((d.declareDefault a.value).mapError (.located a.start)) := by
    rw [d.declareDefault_shift, shifted_mapError]
  have hkept : (.ok { d.shift n with attributes := (d.shift n).attributes ++ [a.shift n] } : Except Error Draft) =
      shifted n (Draft.shift n) (.ok { d with attributes := d.attributes ++ [a] }) := by
    simp only [shifted, Draft.shift, List.map_append, List.map_cons, List.map_nil]
  exact shifted_ite hdeclare (shifted_ite hdefault hkept)

theorem WrittenAttribute.namespace?_shift (a : WrittenAttribute) (scope : Scope) :
    (a.shift n).namespace? scope = shifted n id (a.namespace? scope) := by
  refine shifted_ite rfl (shifted_ite rfl ?_)
  simp only [WrittenAttribute.shift]
  cases scope.lookup a.name.qualifier <;> rfl

theorem WrittenAttribute.finish_shift (scope : Scope) (done : List Attribute) (a : WrittenAttribute) :
    (a.shift n).finish scope done = shifted n id (a.finish scope done) :=
  shifted_bind (a.namespace?_shift scope) fun _ => shifted_ite rfl rfl

theorem finishAll_shift (scope : Scope) (attributes : List WrittenAttribute) (done : List Attribute) :
    (attributes.map (.shift n)).foldlM (WrittenAttribute.finish scope) done =
      shifted n id (attributes.foldlM (WrittenAttribute.finish scope) done) := by
  induction attributes generalizing done with
  | nil => rfl
  | cons a attributes ih =>
    rw [List.map_cons, List.foldlM_cons, List.foldlM_cons]
    exact shifted_bind (a.finish_shift scope done) ih

theorem QName.namespace?_shift (name : QName) (start : Position) (scope : Scope) :
    name.namespace? (start.shift n) scope = shifted n id (name.namespace? start scope) := by
  unfold QName.namespace?
  cases scope.lookup name.qualifier with
  | some uri => rfl
  | none => exact shifted_ite rfl rfl

theorem Draft.tag_shift (d : Draft) (scope : Scope) (name : QName) (start : Position) (line : ℕ) :
    (d.shift n).tag scope name (start.shift n) (line + n) =
      shifted n (Tag.shift n) (d.tag scope name start line) := by
  unfold Draft.tag
  exact shifted_bind (finishAll_shift scope d.attributes []) fun _ =>
    shifted_bind (name.namespace?_shift start scope) fun _ => rfl

namespace Reader

theorem blind_qname : Blind n qname :=
  shifts_position.bind fun _ => (blind_takeWhile _).bind fun word => by
    cases QName.ofChars word with
    | some name => exact blind_pure _
    | none => exact shifts_failAt _ _ _

theorem blind_plainName : Blind n plainName :=
  shifts_position.bind fun _ => (blind_takeWhile _).bind fun word => by
    split_ifs
    · exact blind_pure _
    · exact shifts_failAt _ _ _

theorem blind_equalsQuote : Blind n equalsQuote :=
  blind_spaces.bind fun _ => (blind_consume _).bind fun _ => blind_spaces.bind fun _ => blind_quotation

theorem shifts_writtenAttribute : Shifts n (WrittenAttribute.shift n) writtenAttribute writtenAttribute :=
  shifts_position.bind fun _ => blind_qname.bind fun _ => blind_equalsQuote.bind fun _ =>
    shifts_position.bind fun _ => (blind_takeWhile _).bind fun _ => blind_atEnd.bind fun b => by
      cases b
      · exact (shifts_lift (requireLegal_shift _ _)).bind fun _ => (blind_consume _).bind fun _ =>
          (shifts_lift (attributeValue_shift _ _)).bind fun _ => shifts_pure rfl
      · exact shifts_throw _ _

theorem shifts_tagStep (d : Draft) :
    Shifts n (Sum.map (Draft.shift n) (Prod.map (Draft.shift n) id)) (tagStep d) (tagStep (d.shift n)) :=
  blind_atEnd.bind fun b => by
    cases b
    · refine blind_spaces.bind fun spaced => blind_peek.bind fun x => ?_
      split
      · exact shifts_throw _ _
      · exact (blind_consume _).bind fun _ => (blind_consume _).bind fun _ => shifts_pure rfl
      · exact (blind_consume _).bind fun _ => shifts_pure rfl
      · cases spaced
        · exact shifts_fail _ _
        · exact shifts_writtenAttribute.bind fun a => (shifts_lift (d.add_shift a)).bind fun _ => shifts_pure rfl
    · exact shifts_pure rfl

/-- **A start tag from further down** is the same start tag, on a line further down. -/
theorem shifts_opening (scope : Scope) (line : ℕ) :
    Shifts n (Option.map (Opening.shift n)) (opening scope line) (opening scope (line + n)) :=
  shifts_position.bind fun _ => blind_qname.bind fun name => by
    split_ifs
    · exact shifts_failAt _ _ _
    · refine (shifts_repeatUntil shifts_tagStep ({} : Draft)).bind ?_
      rintro ⟨d, tagEnd⟩
      cases tagEnd with
      | cutOff => exact shifts_pure rfl
      | opened => exact (shifts_lift (d.tag_shift _ name _ line)).bind fun _ => shifts_pure rfl
      | emptied => exact (shifts_lift (d.tag_shift _ name _ line)).bind fun _ => shifts_pure rfl

end Reader

end Vitae.Markup
