import Vitae.Proofs.Json.Reading

/-!
# What is written reads back

Every value that the library writes is read back from its text, at any depth of nesting and
whatever comes after it.

* `readQuoted_escape`, `quote_append`: strings, with all that has to be escaped in them.
* `readValue_write`: values, with the layout between their parts.
* `ofText?_pretty`: **the text of a value is that value.**
-/

namespace Vitae.Json

mutual

/-- A written value among all values. -/
def value : Json → Value
  | .text s => .text s
  | .array items => .array (values items)
  | .object fields => .object (fieldValues fields)

def values : List Json → List Value
  | [] => []
  | item :: items => value item :: values items

def fieldValues : List (String × Json) → List (String × Value)
  | [] => []
  | (key, item) :: fields => (key, value item) :: fieldValues fields

end

theorem values_eq_map (items : List Json) : values items = items.map value := by
  induction items with
  | nil => rfl
  | cons item items ih => rw [values, ih, List.map_cons]

theorem fieldValues_eq_map (fields : List (String × Json)) :
    fieldValues fields = fields.map fun f => (f.1, value f.2) := by
  induction fields with
  | nil => rfl
  | cons f fields ih => rw [fieldValues, ih, List.map_cons]

theorem value_array (items : List Json) : (Json.array items).value = .array (items.map value) := by
  rw [value, values_eq_map]

theorem value_object (fields : List (String × Json)) :
    (Json.object fields).value = .object (fields.map fun f => (f.1, f.2.value)) := by
  rw [value, fieldValues_eq_map]

/-! ## Strings -/

theorem hexValue?_hexDigit {n : ℕ} (h : n < 16) : hexValue? (hexDigit n) = some n := by
  revert n
  decide

/-- Four digits of which the last two are those of a small number are that number. -/
theorem unit?_hexDigits {n : ℕ} (h : n < 0x20) :
    unit? '0' '0' (hexDigit (n / 16)) (hexDigit (n % 16)) = some n := by
  have hzero : hexValue? '0' = some 0 := rfl
  have hhigh := hexValue?_hexDigit (n := n / 16) (by omega)
  have hlow := hexValue?_hexDigit (n := n % 16) (by omega)
  unfold unit?
  rw [hzero, hhigh, hlow]
  show some (4096 * 0 + 256 * 0 + 16 * (n / 16) + n % 16) = some n
  congr 1
  omega

/-- A character written as it stands is read as itself. -/
theorem readQuoted_plain {c : Char} (hquote : c ≠ '\"') (hslash : c ≠ '\\') (h : ¬ c.toNat < 0x20)
    (cs : List Char) : readQuoted (c :: cs) = (readQuoted cs).map (prepend c) := by
  rw [readQuoted]
  · exact if_neg (not_or.2 ⟨hslash, h⟩)
  · exact hquote
  · exact fun _ _ _ _ _ hc _ => hslash hc
  · exact fun _ _ hc _ => hslash hc

/-- A control character written by its number is read as itself. -/
theorem readQuoted_control {c : Char} (h : c.toNat < 0x20) (cs : List Char) :
    readQuoted ('\\' :: 'u' :: '0' :: '0' :: hexDigit (c.toNat / 16) :: hexDigit (c.toNat % 16) :: cs) =
      (readQuoted cs).map (prepend c) := by
  have hsmall : c.toNat < 0xD800 ∨ 0xE000 ≤ c.toNat := Or.inl (by omega)
  rw [readQuoted, unit?_hexDigits h]
  simp only
  rw [if_pos hsmall, Char.ofNat_toNat]

/-- **Every character reads back from its escape**, whatever follows. -/
theorem readQuoted_escape (c : Char) (cs : List Char) :
    readQuoted (escape c ++ cs) = (readQuoted cs).map (prepend c) := by
  unfold escape
  -- in the order in which a character is looked for among those that have to be escaped
  split_ifs with hquote hslash h8 hc hn hr ht h
  · subst hquote; rfl
  · subst hslash; rfl
  · subst h8; rfl
  · subst hc; rfl
  · subst hn; rfl
  · subst hr; rfl
  · subst ht; rfl
  · exact readQuoted_control h cs
  · exact readQuoted_plain hquote hslash h cs

theorem readQuoted_flatMap (s cs : List Char) :
    readQuoted (s.flatMap escape ++ '\"' :: cs) = some (s, cs) := by
  induction s with
  | nil => rfl
  | cons c s ih =>
    rw [List.flatMap_cons, List.append_assoc, readQuoted_escape, ih]
    rfl

/-- **A quoted string reads back**, whatever follows its closing quote. -/
theorem quote_append (s : String) (cs : List Char) :
    ∃ body, quote s ++ cs = '\"' :: body ∧ readQuoted body = some (s.toList, cs) := by
  refine ⟨s.toList.flatMap escape ++ '\"' :: cs, ?_, readQuoted_flatMap _ _⟩
  unfold quote
  rw [List.cons_append, List.append_assoc]
  rfl

/-! ## Layout -/

theorem skipBlanks_newline (depth : ℕ) (cs : List Char) : skipBlanks (newline depth ++ cs) = skipBlanks cs := by
  unfold skipBlanks newline
  rw [List.cons_append, List.dropWhile_cons_of_pos (by decide)]
  induction 2 * depth with
  | zero => rfl
  | succ n ih => rw [List.replicate_succ, List.cons_append, List.dropWhile_cons_of_pos (by decide), ih]

theorem skipBlanks_cons {c : Char} (h : isBlank c = false) (cs : List Char) : skipBlanks (c :: cs) = c :: cs :=
  List.dropWhile_cons_of_neg (by rw [h]; decide)

theorem newline_length (depth : ℕ) : 0 < (newline depth).length := by
  unfold newline
  rw [List.length_cons]
  omega

/-- Blanks before a value do not matter. -/
theorem readValue_newline (n depth : ℕ) (cs : List Char) : readValue n (newline depth ++ cs) = readValue n cs := by
  cases n with
  | zero => rfl
  | succ n => rw [readValue, readValue, skipBlanks_newline]

/-- Blanks before a field do not matter. -/
theorem readField_newline (n depth : ℕ) (cs : List Char) : readField n (newline depth ++ cs) = readField n cs := by
  cases n with
  | zero => rfl
  | succ n => rw [readField, readField, skipBlanks_newline]

/-- A written value begins with a quote or with an opening bracket. -/
theorem write_append (depth : ℕ) (j : Json) (cs : List Char) :
    ∃ c rest, j.write depth ++ cs = c :: rest ∧ isBlank c = false ∧ c ≠ ']' := by
  cases j with
  | text s =>
    obtain ⟨body, hbody, -⟩ := quote_append s cs
    exact ⟨'\"', body, by rw [write, hbody], by decide, by decide⟩
  | array items =>
    cases items with
    | nil => exact ⟨'[', _, rfl, by decide, by decide⟩
    | cons item items =>
      rw [write]
      exact ⟨'[', _, rfl, by decide, by decide⟩
  | object fields =>
    cases fields with
    | nil => exact ⟨'{', _, rfl, by decide, by decide⟩
    | cons f fields =>
      rw [write]
      exact ⟨'{', _, rfl, by decide, by decide⟩

/-! ## Values -/

/-- An array that holds something is read item by item. -/
theorem readValue_array {n : ℕ} {cs more rest : List Char} {item : Value} {items : List Value}
    (hopen : ∃ c tail, skipBlanks cs = c :: tail ∧ c ≠ ']') (hitem : readValue n (skipBlanks cs) = some (item, more))
    (hitems : readItems n more = some (items, rest)) :
    readValue (n + 1) ('[' :: cs) = some (.array (item :: items), rest) := by
  obtain ⟨c, tail, hcs, hc⟩ := hopen
  rw [readValue, skipBlanks_cons (by decide)]
  simp only
  rw [hcs] at hitem ⊢
  split
  · rename_i heq
    exact absurd (List.cons.inj heq).1 hc
  · rw [hitem]
    show (readItems n more).bind _ = _
    rw [hitems]
    rfl

/-- An object that holds something is read field by field. -/
theorem readValue_object {n : ℕ} {cs more rest : List Char} {field : String × Value}
    {fields : List (String × Value)} (hopen : ∃ c tail, skipBlanks cs = c :: tail ∧ c ≠ '}')
    (hfield : readField n (skipBlanks cs) = some (field, more)) (hfields : readFields n more = some (fields, rest)) :
    readValue (n + 1) ('{' :: cs) = some (.object (field :: fields), rest) := by
  obtain ⟨c, tail, hcs, hc⟩ := hopen
  rw [readValue, skipBlanks_cons (by decide)]
  simp only
  rw [hcs] at hfield ⊢
  split
  · rename_i heq
    exact absurd (List.cons.inj heq).1 hc
  · rw [hfield]
    show (readFields n more).bind _ = _
    rw [hfields]
    rfl

/-- A field is its key, a colon, a blank and its value. -/
theorem readField_quote (key : String) {n : ℕ} {cs rest : List Char} {v : Value}
    (h : readValue n cs = some (v, rest)) :
    readField (n + 1) (quote key ++ ':' :: ' ' :: cs) = some ((key, v), rest) := by
  obtain ⟨body, hbody, hread⟩ := quote_append key (':' :: ' ' :: cs)
  have hblank : readValue n (' ' :: cs) = some (v, rest) := by
    rw [← h]
    cases n with
    | zero => rfl
    | succ n =>
      rw [readValue, readValue]
      rfl
  rw [hbody, readField, skipBlanks_cons (by decide)]
  simp only
  rw [hread]
  show ((readValue n (' ' :: cs)).bind _) = _
  rw [hblank]
  show some ((String.ofList key.toList, v), rest) = _
  rw [String.ofList_toList]

mutual

/-- **A written value reads back**, whatever its depth and whatever follows it. -/
theorem readValue_write : ∀ (j : Json) (depth n : ℕ) (cs : List Char), (j.write depth).length ≤ n →
    readValue n (j.write depth ++ cs) = some (j.value, cs)
  | .text s, depth, n, cs, h => by
    obtain ⟨body, hbody, hread⟩ := quote_append s cs
    rw [write] at h ⊢
    obtain ⟨n, rfl⟩ : ∃ m, n = m + 1 := ⟨n - 1, by unfold quote at h; rw [List.length_cons] at h; omega⟩
    rw [hbody, readValue, skipBlanks_cons (by decide)]
    simp only
    rw [hread]
    show some (Value.text (String.ofList s.toList), cs) = _
    rw [String.ofList_toList]
    rfl
  | .array [], depth, n, cs, h => by
    rw [write] at h ⊢
    obtain ⟨n, rfl⟩ : ∃ m, n = m + 1 := ⟨n - 1, by rw [List.length_cons] at h; omega⟩
    rw [readValue]
    rfl
  | .array (item :: items), depth, n, cs, h => by
    rw [write] at h ⊢
    simp only [List.length_append, List.length_cons, List.length_nil] at h
    -- the brackets and the line before the last leave enough for the items
    have hnewline := newline_length depth
    obtain ⟨n, rfl⟩ : ∃ m, n = m + 1 := ⟨n - 1, by omega⟩
    have hitem := readValue_write item (depth + 1) n
      (writeItems (depth + 1) items ++ (newline depth ++ ']' :: cs)) (by omega)
    have hitems := readItems_write items (depth + 1) depth n cs (by omega)
    obtain ⟨c, tail, hc, hblank, hclose⟩ := write_append (depth + 1) item
      (writeItems (depth + 1) items ++ (newline depth ++ ']' :: cs))
    simp only [List.cons_append, List.append_assoc, List.nil_append]
    have hskip : skipBlanks (newline (depth + 1) ++ (item.write (depth + 1) ++
        (writeItems (depth + 1) items ++ (newline depth ++ ']' :: cs)))) = c :: tail := by
      rw [skipBlanks_newline, hc, skipBlanks_cons hblank]
    refine readValue_array ⟨c, tail, hskip, hclose⟩ ?_ hitems
    rw [hskip, ← hc]
    exact hitem
  | .object [], depth, n, cs, h => by
    rw [write] at h ⊢
    obtain ⟨n, rfl⟩ : ∃ m, n = m + 1 := ⟨n - 1, by rw [List.length_cons] at h; omega⟩
    rw [readValue]
    rfl
  | .object ((key, j) :: fields), depth, n, cs, h => by
    rw [write] at h ⊢
    simp only [List.length_append, List.length_cons, List.length_nil] at h
    have hnewline := newline_length depth
    -- a field takes two steps, one for itself and one for its value
    obtain ⟨n, rfl⟩ : ∃ m, n = m + 2 := ⟨n - 2, by omega⟩
    have hvalue := readValue_write j (depth + 1) n
      (writeFields (depth + 1) fields ++ (newline depth ++ '}' :: cs)) (by omega)
    have hfields := readFields_write fields (depth + 1) depth (n + 1) cs (by omega)
    have hfield := readField_quote key hvalue
    obtain ⟨body, hbody, -⟩ := quote_append key (':' :: ' ' :: (j.write (depth + 1) ++
      (writeFields (depth + 1) fields ++ (newline depth ++ '}' :: cs))))
    simp only [List.cons_append, List.append_assoc, List.nil_append]
    have hskip : skipBlanks (newline (depth + 1) ++ (quote key ++ ':' :: ' ' :: (j.write (depth + 1) ++
        (writeFields (depth + 1) fields ++ (newline depth ++ '}' :: cs))))) = '\"' :: body := by
      rw [skipBlanks_newline, hbody, skipBlanks_cons (by decide)]
    refine readValue_object ⟨_, _, hskip, by decide⟩ ?_ hfields
    rw [hskip, ← hbody]
    exact hfield

/-- The items after the first read back, up to the bracket that closes them. -/
theorem readItems_write : ∀ (items : List Json) (depth outer n : ℕ) (cs : List Char),
    (writeItems depth items).length < n →
      readItems n (writeItems depth items ++ (newline outer ++ ']' :: cs)) = some (values items, cs)
  | [], depth, outer, n, cs, h => by
    obtain ⟨n, rfl⟩ : ∃ m, n = m + 1 := ⟨n - 1, by omega⟩
    rw [writeItems, List.nil_append, readItems, skipBlanks_newline]
    rfl
  | item :: items, depth, outer, n, cs, h => by
    rw [writeItems] at h ⊢
    simp only [List.length_append, List.length_cons] at h
    obtain ⟨n, rfl⟩ : ∃ m, n = m + 1 := ⟨n - 1, by omega⟩
    have hitem := readValue_write item depth n
      (writeItems depth items ++ (newline outer ++ ']' :: cs)) (by omega)
    have hitems := readItems_write items depth outer n cs (by omega)
    simp only [List.cons_append, List.append_assoc]
    rw [readItems, skipBlanks_cons (by decide)]
    simp only
    rw [readValue_newline, hitem]
    show (readItems n _).bind _ = _
    rw [hitems]
    rfl

/-- The fields after the first read back, up to the bracket that closes them. -/
theorem readFields_write : ∀ (fields : List (String × Json)) (depth outer n : ℕ) (cs : List Char),
    (writeFields depth fields).length < n →
      readFields n (writeFields depth fields ++ (newline outer ++ '}' :: cs)) = some (fieldValues fields, cs)
  | [], depth, outer, n, cs, h => by
    obtain ⟨n, rfl⟩ : ∃ m, n = m + 1 := ⟨n - 1, by omega⟩
    rw [writeFields, List.nil_append, readFields, skipBlanks_newline]
    rfl
  | (key, j) :: fields, depth, outer, n, cs, h => by
    rw [writeFields] at h ⊢
    simp only [List.length_append, List.length_cons, List.length_nil] at h
    have hnewline := newline_length depth
    obtain ⟨n, rfl⟩ : ∃ m, n = m + 2 := ⟨n - 2, by omega⟩
    have hvalue := readValue_write j depth n
      (writeFields depth fields ++ (newline outer ++ '}' :: cs)) (by omega)
    have hfields := readFields_write fields depth outer (n + 1) cs (by omega)
    simp only [List.cons_append, List.append_assoc, List.nil_append]
    rw [readFields, skipBlanks_cons (by decide)]
    simp only
    rw [readField_newline, readField_quote key hvalue]
    show (readFields (n + 1) _).bind _ = _
    rw [hfields]
    rfl

end

/-- **The text of a value is that value.** -/
theorem ofText?_pretty (j : Json) : Value.ofText? j.pretty = some j.value := by
  have hread : readValue (j.pretty.length + 1) j.pretty.toList = some (j.value, ['\n']) := by
    unfold pretty
    rw [String.toList_ofList, String.length_ofList]
    refine readValue_write j 0 _ ['\n'] ?_
    rw [List.length_append]
    omega
  unfold Value.ofText?
  rw [hread]
  rfl

end Vitae.Json
