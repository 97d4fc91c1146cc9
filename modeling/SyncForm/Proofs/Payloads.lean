import Mathlib
import SyncForm.Column
import SyncForm.Proofs.ReadLaws
import SyncForm.Proofs.Reading

/-!
# Payloads in indented form

Normalising a payload settles it: a payload that is not given stays, an unreadable one is cleared,
and a readable one is written anew (`ColumnOf.normalise_canonical`). The new text spells the same
document, except that a surrogate pair whose halves stood side by side is one code point from then
on; JSON has no way to write the two apart (`ColumnOf.normalise_halves`). A payload counts as valid
just where it is readable.
-/

namespace SyncForm.ColumnOf

open Json (Document Style readCodes codesOf)

variable (c : ColumnOf Document) {s : List Nat}

/-- A row with a list of code points as its payload. -/
def withPayload (s : List Nat) : ColumnOf Document :=
  { c with payload := .text s }

/-- A payload is given unless it is empty. -/
theorem isTrue_withPayload : Datum.isTrue (c.withPayload s).payload = true ↔ s ≠ [] := by
  rw [withPayload, Document.datum_isTrue_text]
  simp

/-- A readable text is not empty. -/
theorem ne_nil_of_read {d : Document} (h : readCodes s = .ok d) : s ≠ [] := by
  rintro rfl
  cases h

/-- A payload spells a document, or none. -/
theorem readPayload_withPayload (s : List Nat) : readPayload (c.withPayload s).payload =
    match readCodes s with
    | .ok d => .ok (some d)
    | .error _ => .ok none :=
  rfl

/-- A payload is valid if it is readable. -/
theorem hasPayload_withPayload (s : List Nat) :
    (c.withPayload s).hasPayload = .ok (readCodes s).isOk := by
  unfold hasPayload
  by_cases hs : s = []
  · subst hs
    rfl
  · rw [if_pos (c.isTrue_withPayload.2 hs), readPayload_withPayload]
    cases readCodes s with
    | error flaw => rfl
    | ok d => rfl

/-- A payload that is not given is left as it is. -/
theorem normalise_empty : (c.withPayload []).normalise = .ok (true, c.withPayload []) :=
  rfl

/-- An unreadable payload is cleared. -/
theorem normalise_of_unreadable {flaw : Json.Flaw} (hs : s ≠ []) (h : readCodes s = .error flaw) :
    (c.withPayload s).normalise = .ok (false, c.withPayload []) := by
  unfold normalise
  rw [if_pos (c.isTrue_withPayload.2 hs), readPayload_withPayload, h]
  rfl

/-- A readable payload is written anew. -/
theorem normalise_of_readable {d : Document} (h : readCodes s = .ok d) :
    (c.withPayload s).normalise = .ok (true, c.withPayload d.pretty) := by
  unfold normalise
  rw [if_pos (c.isTrue_withPayload.2 (ne_nil_of_read h)), readPayload_withPayload, h]
  rfl

/-- What a readable payload is written as spells the document with its surrogate pairs joined. -/
theorem read_normalised {d : Document} (hs : Json.IsText s) (h : readCodes s = .ok d) :
    readCodes d.pretty = .ok d.joined :=
  Json.read_print Json.isBlank_pretty (Json.legible_of_json (Json.json_of_read hs h))

/-- Normalising settles a payload. One that is not given stays, an unreadable one is cleared. A
readable one becomes the indented text of its document, which spells the document with its surrogate
pairs joined: the same document just if no text in it holds a pair in two halves, and so always if
the payload consists of characters. The new payload is valid, and it stays, if the names of each
object still differ once they are joined, as they do where no name holds a pair. A payload is valid
just where it is given and normalising does not clear it. Members that are spelled out one by one
are the object that holds each name once, in the place of the first and with the value of the last.
-/
theorem normalise_canonical (hs : Json.IsText s) :
    (s = [] → (c.withPayload s).normalise = .ok (true, c.withPayload s)) ∧
    (∀ flaw, s ≠ [] → readCodes s = .error flaw →
      (c.withPayload s).normalise = .ok (false, c.withPayload [])) ∧
    (∀ d, readCodes s = .ok d → ∃ t, t = d.pretty ∧
      (c.withPayload s).normalise = .ok (true, c.withPayload t) ∧
      readCodes t = .ok d.joined ∧
      (d.joined = d ↔ d.Obeys .unpaired) ∧
      ((∀ n ∈ s, n.isValidChar) → d.Obeys .unpaired) ∧
      (c.withPayload t).hasPayload = .ok true ∧
      (d.Obeys .distinct → (c.withPayload t).normalise = .ok (true, c.withPayload t)) ∧
      (d.Obeys .unpaired → d.Obeys .distinct)) ∧
    (∃ valid, (c.withPayload s).hasPayload = .ok valid ∧
      (valid = true ↔ s ≠ [] ∧ ∃ c', (c.withPayload s).normalise = .ok (true, c'))) ∧
    ∀ (style : Style) (members : List (List Nat × Document)), style.IsBlank →
      (Document.object members).Obeys .legible → s = (Document.object members).print style 0 →
      ∃ held, readCodes s = .ok (.object held) ∧
        held.map (·.1) = ((Json.joinMembers members).map (·.1)).eraseDups ∧
        ∀ name, held.lookup name = (Json.joinMembers members).reverse.lookup name := by
  refine ⟨?_, fun flaw => c.normalise_of_unreadable, fun d hread => ?_,
    ⟨_, c.hasPayload_withPayload s, ?_⟩, ?_⟩
  · rintro rfl
    exact c.normalise_empty
  · have hjson := Json.json_of_read hs hread
    have hagain := read_normalised hs hread
    refine ⟨_, rfl, c.normalise_of_readable hread, hagain, Json.joined_eq_self_iff hjson,
      fun hchars => Json.unpaired_of_read hchars hread, ?_, fun hnames => ?_,
      Json.distinct_of_unpaired hjson⟩
    · rw [hasPayload_withPayload, hagain]
      rfl
    · have hsame : d.joined.pretty = d.pretty := Json.print_joined Style.pretty 0 hnames
      rw [c.normalise_of_readable hagain, hsame]
  · cases hread : readCodes s with
    | error flaw =>
      refine iff_of_false Bool.false_ne_true fun ⟨hs, c', hnormal⟩ => ?_
      cases (c.normalise_of_unreadable hs hread).symm.trans hnormal
    | ok d =>
      exact iff_of_true rfl ⟨ne_nil_of_read hread, _, c.normalise_of_readable hread⟩
  · rintro style members hstyle hmembers rfl
    exact Json.read_printMembers hstyle hmembers

/-- A row without a name. -/
def unnamed : ColumnOf Document :=
  { ordinal := 0, name := .text [], dataType := .text [], connected := false, payload := .text [] }

/-- An object with one of its names repeated and half of a surrogate pair, as itself, in a text. -/
def repeated : List Nat :=
  codesOf "\x7b\"a\": 1, \"b\": [\"" ++ 0xD83D :: codesOf "\"], \"a\": NaN\x7d"

/-- The document of that object. -/
def repeatedDocument : Document :=
  .object [(codesOf "a", .float .nan), (codesOf "b", .array [.text [0xD83D]])]

/-- The indented text keeps the first place and the last value of a name, and half of a surrogate
pair as its escape. -/
theorem normalise_canonical_repeated :
    let t := codesOf "\x7b\n  \"a\": NaN,\n  \"b\": [\n    \"\\ud83d\"\n  ]\n\x7d"
    Json.IsText repeated ∧ readCodes repeated = .ok repeatedDocument ∧
      (unnamed.withPayload repeated).normalise = .ok (true, unnamed.withPayload t) ∧
      readCodes t = .ok repeatedDocument ∧ (unnamed.withPayload t).hasPayload = .ok true ∧
      (unnamed.withPayload t).normalise = .ok (true, unnamed.withPayload t) := by
  have htext : Json.IsText repeated := by decide
  have hread : readCodes repeated = .ok repeatedDocument := by cbv
  have hunpaired : repeatedDocument.Obeys .unpaired := by
    simp only [repeatedDocument, Document.Obeys, Json.MembersObey, Json.ItemsObey,
      Json.Law.unpaired]
    decide
  obtain ⟨t, ht, hnormal, hagain, hjoined, -, hvalid, hstays, hdistinct⟩ :=
    (unnamed.normalise_canonical htext).2.2.1 repeatedDocument hread
  have hpretty : repeatedDocument.pretty =
      codesOf "\x7b\n  \"a\": NaN,\n  \"b\": [\n    \"\\ud83d\"\n  ]\n\x7d" := by
    cbv
  rw [hpretty] at ht
  subst ht
  exact ⟨htext, hread, hnormal, hagain.trans (congrArg _ (hjoined.2 hunpaired)), hvalid,
    hstays (hdistinct hunpaired)⟩

/-- A text whose first half of a surrogate pair stands there as itself, the second one as its
escape. -/
def halves : List Nat :=
  0x22 :: 0xD800 :: codesOf "\\udc00\""

/-- An object with a member under such a name and one under the name that is its joined form. -/
def halvesAsName : List Nat :=
  codesOf "\x7b\"" ++ 0xD800 :: codesOf "\\udc00\": 1, \"" ++ 0x10000 :: codesOf "\": 2\x7d"

/-- Two halves of a surrogate pair are two code points, and what they are written as spells one.
Where they are a name that the object holds joined as well, what is written does not stay. -/
theorem normalise_halves :
    (readCodes halves = .ok (.text [0xD800, 0xDC00]) ∧
      ∃ t, (unnamed.withPayload halves).normalise = .ok (true, unnamed.withPayload t) ∧
        readCodes t = .ok (.text [0x10000])) ∧
    ∃ t t', (unnamed.withPayload halvesAsName).normalise = .ok (true, unnamed.withPayload t) ∧
      (unnamed.withPayload t).normalise = .ok (true, unnamed.withPayload t') ∧ t' ≠ t := by
  have hread : readCodes halves = .ok (.text [0xD800, 0xDC00]) := by cbv
  have hjoined : Json.joinCodes [0xD800, 0xDC00] = [0x10000] := by decide
  have hname : readCodes halvesAsName =
      .ok (.object [([0xD800, 0xDC00], .int 1), ([0x10000], .int 2)]) := by cbv
  refine ⟨⟨hread, _, unnamed.normalise_of_readable hread, ?_⟩, _, _,
    unnamed.normalise_of_readable hname,
    unnamed.normalise_of_readable (read_normalised (by decide) hname), by decide⟩
  rw [read_normalised (by decide) hread, Document.joined, hjoined]

end SyncForm.ColumnOf
