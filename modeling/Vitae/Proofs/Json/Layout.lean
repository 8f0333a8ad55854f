import Mathlib.Data.List.Forall2
import Vitae.Proofs.Json.Outline

/-!
# The layout of written JSON

What is left of a written value without its strings: brackets, commas and colons, keys, and the
lines that all of them stand on. The strings have no part in it.

* `outline_pretty`: **what is left of a text**, by recursion on the value alone.
* `Alike`: values with the same layout, which `alike_array` and `alike_object` make part by part.
-/

namespace Vitae.Json

variable {c : Char} {text more : List Char} {ps qs : List Piece}

/-! ## Texts that show the same whatever follows -/

/-- Characters outside quotes. -/
def marks (text : List Char) : List Piece := text.map .mark

/-- What a key shows with what stands between it and its value. -/
def keyPieces (key : String) : List Piece :=
  [.key (key.toList.flatMap escape), .mark ':', .mark ' ']

/-- A text that makes no key of a string before it. -/
def Apart (text : List Char) : Prop := text.head? ≠ some ':'

/-- A text of which `ps` is left, whatever comes after it. -/
def Shows (text : List Char) (ps : List Piece) : Prop :=
  ∀ rest, Apart rest → outline (text ++ rest) = (outline rest).map (ps ++ ·)

/-- A character that stands for itself outside quotes. -/
def Plain (c : Char) : Prop := c ≠ '\"' ∧ (c.toNat < 0x20 → c = '\n')

instance : DecidablePred Plain := fun c => inferInstanceAs (Decidable (c ≠ '\"' ∧ (c.toNat < 0x20 → c = '\n')))

theorem apart_cons (h : c ≠ ':') : Apart (c :: text) := fun heq => h (Option.some.inj heq)

theorem apart_append (h : Apart text) (hmore : Apart more) : Apart (text ++ more) := by
  cases text with
  | nil => exact hmore
  | cons c text => exact h

theorem Shows.append (h : Shows text ps) (hmore : Shows more qs) (hapart : Apart more) :
    Shows (text ++ more) (ps ++ qs) := by
  intro rest hrest
  rw [List.append_assoc, h _ (apart_append hapart hrest), hmore _ hrest, Option.map_map]
  congr 1
  funext rs
  exact (List.append_assoc ps qs rs).symm

theorem outline_plain (h : Plain c) : outline (c :: text) = (outline text).map (.mark c :: ·) := by
  unfold outline
  rw [pieces, if_neg h.1, if_neg fun hcontrol => hcontrol.2 (h.2 hcontrol.1)]

theorem shows_marks (h : ∀ c ∈ text, Plain c) : Shows text (marks text) := by
  intro rest hrest
  induction text with
  | nil => exact Option.map_id'.symm
  | cons c text ih =>
    rw [List.forall_mem_cons] at h
    rw [List.cons_append, outline_plain h.1, ih h.2, Option.map_map]
    rfl

theorem shows_newline (depth : ℕ) : Shows (newline depth) (marks (newline depth)) := by
  refine shows_marks fun c hc => ?_
  rcases List.mem_cons.1 hc with rfl | hc
  · exact ⟨by decide, fun _ => rfl⟩
  · obtain ⟨-, rfl⟩ := List.mem_replicate.1 hc
    exact ⟨by decide, fun h => absurd h (by decide)⟩

theorem shows_mark (h : Plain c) : Shows [c] [.mark c] :=
  shows_marks fun _ hd => List.mem_singleton.1 hd ▸ h

/-! ## Strings -/

/-- A digit of an escape stands within quotes as it is. -/
theorem hexDigit_plain {n : ℕ} (h : n < 16) :
    ¬ (hexDigit n).toNat < 0x20 ∧ hexDigit n ≠ '\"' ∧ hexDigit n ≠ '\\' := by
  revert n
  decide

theorem pieces_within {w cs : List Char} (hcontrol : ¬ c.toNat < 0x20) (hquote : c ≠ '\"') (hslash : c ≠ '\\') :
    pieces (.within w) (c :: cs) = pieces (.within (w ++ [c])) cs := by
  rw [pieces, if_neg hcontrol, if_neg hquote, if_neg hslash]

theorem pieces_escaped {w cs : List Char} (hcontrol : ¬ c.toNat < 0x20) :
    pieces (.within w) ('\\' :: c :: cs) = pieces (.within (w ++ ['\\', c])) cs := by
  have hslash : pieces (.within w) ('\\' :: c :: cs) = pieces (.escaped (w ++ ['\\'])) (c :: cs) := rfl
  rw [hslash, pieces, if_neg hcontrol, List.append_assoc]
  rfl

/-- **No character closes the quotes it stands in**, nor guards what follows it. -/
theorem pieces_escape (c : Char) (w cs : List Char) :
    pieces (.within w) (escape c ++ cs) = pieces (.within (w ++ escape c)) cs := by
  unfold escape
  split_ifs with hquote hslash _ _ _ _ _ hcontrol
  -- the eight characters with an escape of their own or by number, and those without
  iterate 7 exact pieces_escaped (by decide)
  · obtain ⟨hhigh, hhighquote, hhighslash⟩ := hexDigit_plain (n := c.toNat / 16) (by omega)
    obtain ⟨hlow, hlowquote, hlowslash⟩ := hexDigit_plain (n := c.toNat % 16) (by omega)
    have hzero : ¬ '0'.toNat < 0x20 ∧ '0' ≠ '\"' ∧ '0' ≠ '\\' := by decide
    simp only [List.cons_append, List.nil_append]
    rw [pieces_escaped (by decide), pieces_within hzero.1 hzero.2.1 hzero.2.2,
      pieces_within hzero.1 hzero.2.1 hzero.2.2, pieces_within hhigh hhighquote hhighslash,
      pieces_within hlow hlowquote hlowslash]
    simp only [List.append_assoc, List.cons_append, List.nil_append]
  · exact pieces_within hcontrol hquote hslash

theorem pieces_flatMap_escape (s w cs : List Char) :
    pieces (.within w) (s.flatMap escape ++ '\"' :: cs) =
      (outline cs).map (.quoted (w ++ s.flatMap escape) cs :: ·) := by
  induction s generalizing w with
  | nil =>
    rw [List.flatMap_nil, List.nil_append, List.append_nil, pieces, if_neg (by decide), if_pos rfl]
    rfl
  | cons c s ih => rw [List.flatMap_cons, List.append_assoc, pieces_escape, ih, List.append_assoc]

/-- **A string in quotes is one piece**, whatever is in it. -/
theorem outline_quote (s : String) (cs : List Char) :
    outline (quote s ++ cs) = (outline cs).map (.quoted (s.toList.flatMap escape) cs :: ·) := by
  unfold quote outline
  rw [List.cons_append, List.append_assoc, pieces, if_pos rfl]
  exact pieces_flatMap_escape s.toList [] cs

example : outline (quote "]\",\n\\" ++ [',']) = some [.value, .mark ','] := by decide

theorem shows_value (s : String) : Shows (quote s) [.value] := by
  intro rest hrest
  rw [outline_quote, Piece.quoted, if_neg hrest]
  rfl

theorem shows_key (key : String) : Shows (quote key ++ [':', ' ']) (keyPieces key) := by
  intro rest _
  have hkey : ((':' :: ' ' :: rest).head? = some ':') := rfl
  rw [List.append_assoc, outline_quote, Piece.quoted]
  simp only [List.cons_append, List.nil_append]
  rw [if_pos hkey, outline_plain (by decide), outline_plain (by decide), Option.map_map, Option.map_map]
  rfl

/-! ## Values -/

mutual

/-- What a value shows at a depth of nesting. -/
def layout (depth : ℕ) : Json → List Piece
  | .text _ => [.value]
  | .array [] => [.mark '[', .mark ']']
  | .array (item :: items) =>
    .mark '[' :: (marks (newline (depth + 1)) ++ layout (depth + 1) item ++ layoutItems (depth + 1) items
      ++ marks (newline depth) ++ [.mark ']'])
  | .object [] => [.mark '{', .mark '}']
  | .object ((key, value) :: fields) =>
    .mark '{' :: (marks (newline (depth + 1)) ++ (keyPieces key ++ layout (depth + 1) value)
      ++ layoutFields (depth + 1) fields ++ marks (newline depth) ++ [.mark '}'])

def layoutItems (depth : ℕ) : List Json → List Piece
  | [] => []
  | item :: items => .mark ',' :: (marks (newline depth) ++ layout depth item ++ layoutItems depth items)

def layoutFields (depth : ℕ) : List (String × Json) → List Piece
  | [] => []
  | (key, value) :: fields =>
    .mark ',' :: (marks (newline depth) ++ (keyPieces key ++ layout depth value) ++ layoutFields depth fields)

end

theorem apart_newline (depth : ℕ) : Apart (newline depth) := apart_cons (by decide)

theorem apart_quote (s : String) : Apart (quote s) := apart_cons (by decide)

theorem apart_write (depth : ℕ) (j : Json) : Apart (j.write depth) := by
  cases j with
  | text s => exact apart_quote s
  | array items => cases items <;> exact apart_cons (by decide)
  | object fields => cases fields <;> exact apart_cons (by decide)

theorem apart_writeItems (depth : ℕ) (items : List Json) : Apart (writeItems depth items) := by
  cases items with
  | nil => nofun
  | cons item items => exact apart_cons (by decide)

theorem apart_writeFields (depth : ℕ) (fields : List (String × Json)) : Apart (writeFields depth fields) := by
  cases fields with
  | nil => nofun
  | cons f fields => exact apart_cons (by decide)

/-- A field is its key and its value. -/
theorem shows_field (key : String) (h : Shows text ps) (hapart : Apart text) :
    Shows (quote key ++ [':', ' '] ++ text) (keyPieces key ++ ps) :=
  (shows_key key).append h hapart

theorem apart_field (key : String) (text : List Char) : Apart (quote key ++ [':', ' '] ++ text) :=
  apart_cons (c := '\"') (by decide)

/-- Members on lines of their own between two brackets. -/
theorem shows_enclosed {o : Char} {members : List Char} (ho : Plain o) (hc : Plain c) (hapart : c ≠ ':')
    (h : Shows members ps) (hmembers : Apart members) (depth inner : ℕ) :
    Shows (o :: newline inner ++ members ++ newline depth ++ [c])
      (.mark o :: (marks (newline inner) ++ ps ++ marks (newline depth) ++ [.mark c])) := by
  have hfirst := ((shows_mark ho).append (shows_newline inner) (apart_newline inner)).append h hmembers
  have hall := (hfirst.append (shows_newline depth) (apart_newline depth)).append (shows_mark hc)
    (apart_cons hapart)
  simpa only [List.append_assoc, List.cons_append, List.nil_append] using hall

/-- A member on a line of its own, after a comma, and the members after it. -/
theorem shows_next (h : Shows text ps) (hapart : Apart text) (hmore : Shows more qs) (hmoreApart : Apart more)
    (depth : ℕ) :
    Shows (',' :: newline depth ++ text ++ more) (.mark ',' :: (marks (newline depth) ++ ps ++ qs)) := by
  have hcomma := (shows_mark (c := ',') (by decide)).append (shows_newline depth) (apart_newline depth)
  exact (hcomma.append h hapart).append hmore hmoreApart

mutual

/-- **What a written value shows is its layout**, whatever comes after it. -/
theorem shows_write : ∀ (j : Json) (depth : ℕ), Shows (j.write depth) (layout depth j)
  | .text s, depth => shows_value s
  | .array [], depth => by
    rw [write]
    exact (shows_mark (c := '[') (by decide)).append (shows_mark (c := ']') (by decide)) (apart_cons (by decide))
  | .array (item :: items), depth => by
    have hmembers := (shows_write item (depth + 1)).append (shows_writeItems items (depth + 1))
      (apart_writeItems (depth + 1) items)
    have hall := shows_enclosed (o := '[') (c := ']') (by decide) (by decide) (by decide) hmembers
      (apart_append (apart_write _ _) (apart_writeItems _ _)) depth (depth + 1)
    rw [write, layout]
    simpa only [List.append_assoc] using hall
  | .object [], depth => by
    rw [write]
    exact (shows_mark (c := '{') (by decide)).append (shows_mark (c := '}') (by decide)) (apart_cons (by decide))
  | .object ((key, j) :: fields), depth => by
    have hmembers := (shows_field key (shows_write j (depth + 1)) (apart_write _ _)).append
      (shows_writeFields fields (depth + 1)) (apart_writeFields (depth + 1) fields)
    have hall := shows_enclosed (o := '{') (c := '}') (by decide) (by decide) (by decide) hmembers
      (apart_append (apart_field key _) (apart_writeFields _ _)) depth (depth + 1)
    rw [write, layout]
    simpa only [List.append_assoc] using hall

theorem shows_writeItems : ∀ (items : List Json) (depth : ℕ),
    Shows (writeItems depth items) (layoutItems depth items)
  | [], depth => shows_marks nofun
  | item :: items, depth => by
    rw [writeItems, layoutItems]
    exact shows_next (shows_write item depth) (apart_write depth item) (shows_writeItems items depth)
      (apart_writeItems depth items) depth

theorem shows_writeFields : ∀ (fields : List (String × Json)) (depth : ℕ),
    Shows (writeFields depth fields) (layoutFields depth fields)
  | [], depth => shows_marks nofun
  | (key, j) :: fields, depth => by
    have hfield := shows_field key (shows_write j depth) (apart_write depth j)
    have hall := shows_next hfield (apart_field key _) (shows_writeFields fields depth)
      (apart_writeFields depth fields) depth
    rw [writeFields, layoutFields]
    simpa only [List.append_assoc] using hall

end

/-- **What is left of a text is the layout of its value and the last newline.** -/
theorem outline_pretty (j : Json) : outline j.pretty.toList = some (layout 0 j ++ [.mark '\n']) := by
  unfold pretty
  rw [String.toList_ofList, shows_write j 0 _ (apart_cons (by decide))]
  rfl

/-! ## Values with the same layout -/

/-- Values that differ in nothing but the strings in them. -/
def Alike (j k : Json) : Prop := ∀ depth, layout depth j = layout depth k

theorem layoutItems_congr {items items' : List Json} (h : List.Forall₂ Alike items items') (depth : ℕ) :
    layoutItems depth items = layoutItems depth items' := by
  induction h with
  | nil => rfl
  | cons hitem _ ih => rw [layoutItems, layoutItems, hitem, ih]

theorem layoutFields_congr {fields fields' : List (String × Json)}
    (h : List.Forall₂ (fun f g => f.1 = g.1 ∧ Alike f.2 g.2) fields fields') (depth : ℕ) :
    layoutFields depth fields = layoutFields depth fields' := by
  induction h with
  | nil => rfl
  | cons hfield _ ih => rw [layoutFields, layoutFields, hfield.1, hfield.2, ih]

theorem alike_text (s s' : String) : Alike (.text s) (.text s') := fun _ => rfl

theorem alike_array {items items' : List Json} (h : List.Forall₂ Alike items items') :
    Alike (.array items) (.array items') := by
  intro depth
  cases h with
  | nil => rfl
  | cons hitem hitems => rw [layout, layout, hitem, layoutItems_congr hitems]

theorem alike_object {fields fields' : List (String × Json)}
    (h : List.Forall₂ (fun f g => f.1 = g.1 ∧ Alike f.2 g.2) fields fields') :
    Alike (.object fields) (.object fields') := by
  intro depth
  cases h with
  | nil => rfl
  | cons hfield hfields => rw [layout, layout, hfield.1, hfield.2, layoutFields_congr hfields]

end Vitae.Json
