import Vitae.Proofs.Loading
import Vitae.Proofs.Markup.Starts
import Vitae.Proofs.Schema.Outcome

/-!
# Reported lines

What is reported of a text is reported on the lines where its elements begin, in the order of the
text. A reading that stops at an element has reported nothing that begins further down.

* `Noted.at?`, `Noted.fits`: where the element is that a note is about, and what its name can be.
* `Resume.parse_lines`: **reported lines follow the document.**
-/

namespace Vitae

open Markup (Element ElementOn Path elementOn_of_at? line_le_of_lt)

namespace Schema

/-! ## Notes -/

/-- The names that an element can have that breaks a rule. -/
def Violation.Fits (name : String) : Violation → Prop
  | .untitled => name = "section" ∨ name = "entry"
  | .listNotAlone => name = "list"
  | .secondList => name = "list"
  | .strangerInList => name ≠ "item"
  | .elementInItem => name = "item"

variable {root e s c : Element} {p : Path} {i : ℕ} {n : Note} {rule : Violation}

theorem at?_cons (hs : e.children[i]? = some s) : e.at? (i :: p) = s.at? p := by
  rw [Element.at?, hs]
  rfl

theorem at?_singleton (hc : e.children[i]? = some c) : e.at? [i] = some c := at?_cons hc

theorem NotedInList.at? (h : NotedInList e p c n) : e.at? p = some c := by
  cases h with
  | stranger hc _ => exact at?_singleton hc
  | crowded hc _ _ => exact at?_singleton hc

theorem NotedInEntry.at? (h : NotedInEntry e p c n) : e.at? p = some c := by
  cases h with
  | untitled _ => rfl
  | secondList _ _ _ hl _ => exact at?_singleton hl
  | inList hl _ hitem => exact (at?_cons hl).trans hitem.at?
  | unrecognized hc _ => exact at?_singleton hc

theorem NotedInSection.at? (h : NotedInSection e p c n) : e.at? p = some c := by
  cases h with
  | untitled _ => rfl
  | listNotAlone hl _ _ => exact at?_singleton hl
  | inList hl _ hitem => exact (at?_cons hl).trans hitem.at?
  | inEntry he _ hbelow => exact (at?_cons he).trans hbelow.at?
  | unrecognized hc _ => exact at?_singleton hc

/-- **A note is about the element that its path leads to.** -/
theorem Noted.at? (h : Noted root p c n) : root.at? p = some c := by
  cases h with
  | inSection hs _ hbelow => exact (at?_cons hs).trans hbelow.at?
  | unrecognized hc _ => exact at?_singleton hc

theorem NotedInList.fits (h : NotedInList e p c (.breaks rule)) : rule.Fits c.name := by
  cases h with
  | stranger _ hname => exact hname
  | crowded _ hname _ => exact hname

theorem NotedInEntry.fits (he : e.name = "entry") (h : NotedInEntry e p c (.breaks rule)) : rule.Fits c.name := by
  cases h with
  | untitled _ => exact Or.inr he
  | secondList _ _ _ _ hname => exact hname
  | inList _ _ hitem => exact hitem.fits

theorem NotedInSection.fits (hs : e.name = "section") (h : NotedInSection e p c (.breaks rule)) :
    rule.Fits c.name := by
  cases h with
  | untitled _ => exact Or.inl hs
  | listNotAlone _ hname _ => exact hname
  | inList _ _ hitem => exact hitem.fits
  | inEntry _ he hbelow => exact hbelow.fits he

/-- **An element that breaks a rule has a name to which the rule applies.** -/
theorem Noted.fits (h : Noted root p c (.breaks rule)) : rule.Fits c.name := by
  cases h with
  | inSection _ hs hbelow => exact hbelow.fits hs

end Schema

namespace Resume

open Schema (exists_reported readResume)

/-! ## Lines -/

/-- An error that is passed on under another name was there under its own. -/
theorem exists_of_mapError {ε ε' α : Type} {f : ε → ε'} {x : Except ε α} {e' : ε'} (h : x.mapError f = .error e') :
    ∃ e, x = .error e ∧ f e = e' := by
  cases x with
  | ok a => cases h
  | error e => exact ⟨e, rfl, Except.error.inj h⟩

/-- The lines that a reading reports of a text: each is that of an element, they never decrease, and
none is greater than that of the element at fault. -/
theorem readResume_lines {text : String} {root : Element} (hroot : Markup.Element.ofString text = .ok root)
    (log : Log) : ∃ added : List Diagnostic,
    ((readResume root).after log).2 = log ++ added.toArray ∧
    (∀ d ∈ added, ElementOn text d.tag d.line) ∧ (added.map (·.line)).Pairwise (· ≤ ·) ∧
    ∀ line rule, ((readResume root).after log).1 = .error (.broken line rule) →
      (∃ name, rule.Fits name ∧ ElementOn text name line) ∧ ∀ d ∈ added, d.line ≤ line := by
  obtain ⟨found, hlog, hpairwise, hreported, -⟩ := exists_reported root log
  have hfound : ∀ x ∈ found, root.at? x.1 = some x.2 := fun _ hx => (hreported.noted hx).at?
  refine ⟨_, hlog, ?_, ?_, ?_⟩
  · intro d hd
    obtain ⟨x, hx, rfl⟩ := List.mem_map.1 hd
    exact elementOn_of_at? hroot (hfound x hx)
  · rw [List.map_map, List.pairwise_map]
    exact hpairwise.imp_of_mem fun hx hy hlt => line_le_of_lt hroot (hfound _ hx) (hfound _ hy) hlt
  · intro line rule herror
    rw [herror] at hreported
    -- all that was found stands before the element at fault, in the order of paths
    obtain ⟨q, c, ⟨hnote, -⟩, rfl, hbefore⟩ := hreported
    refine ⟨⟨c.name, hnote.fits, elementOn_of_at? hroot hnote.at?⟩, ?_⟩
    intro d hd
    obtain ⟨x, hx, rfl⟩ := List.mem_map.1 hd
    exact line_le_of_lt hroot (hfound x hx) hnote.at? ((hbefore x.1 x.2).1 hx).2

/-- **Reported lines follow the document.** What a call adds to the log, and an element at which it
stops, are on lines where elements of the text with fitting names begin. The lines that are added never
decrease, they are lines of the text, and none is greater than that of the element at fault. -/
theorem parse_lines (text : String) (log : Log) : ∃ added : List Diagnostic,
    ((parse text).after log).2 = log ++ added.toArray ∧
    (∀ d ∈ added, ElementOn text d.tag d.line ∧ 1 ≤ d.line ∧ d.line ≤ 1 + text.toList.count '\n') ∧
    (added.map (·.line)).Pairwise (· ≤ ·) ∧
    ∀ line rule, ((parse text).after log).1 = .error (.schema (.broken line rule)) →
      (∃ name, rule.Fits name ∧ ElementOn text name line) ∧
      (1 ≤ line ∧ line ≤ 1 + text.toList.count '\n') ∧ ∀ d ∈ added, d.line ≤ line := by
  rw [after_parse]
  cases hroot : Markup.Element.ofString text with
  | error e => exact ⟨[], by simp, nofun, .nil, nofun⟩
  | ok root =>
    obtain ⟨added, hlog, hnames, hpairwise, hfault⟩ := readResume_lines hroot log
    refine ⟨added, hlog, fun d hd => ⟨hnames d hd, (hnames d hd).bounds⟩, hpairwise, ?_⟩
    intro line rule herror
    obtain ⟨e, hread, he⟩ := exists_of_mapError herror
    cases he
    obtain ⟨⟨name, hfits, hname⟩, hle⟩ := hfault line rule hread
    exact ⟨⟨name, hfits, hname⟩, hname.bounds, hle⟩

/-- A line is that of the `<`, however the tag goes on, and elements can share one. -/
example : ((parse "<resume>\n<section\n title='A'><x\n/><y/></section><z/></resume>").after #[]).2 =
    #[⟨3, "x"⟩, ⟨4, "y"⟩, ⟨4, "z"⟩] := by decide +kernel

end Resume

end Vitae
