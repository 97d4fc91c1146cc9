import Mathlib.Data.List.TakeWhile
import SyncForm.Proofs.Joining
import SyncForm.Proofs.Numerals

/-!
# Reading written documents

A document that is written is read back in its joined form, in every style that sets its parts apart
by white space (`read_print`). This takes a legible document, no integer of which has too many
digits. Members with the same name come back as one (`read_printMembers`).
-/

namespace SyncForm.Json

variable {style : Style} {rest : List Nat}

/-! ## White space -/

/-- A style sets the parts of a document apart by white space and commas only. -/
structure Style.IsBlank (style : Style) : Prop where
  opening : ∀ depth, ∀ n ∈ style.opening depth, isSpace n = true
  between : ∀ depth, ∃ gap, style.between depth = 0x2C :: gap ∧ ∀ n ∈ gap, isSpace n = true
  closing : ∀ depth, ∀ n ∈ style.closing depth, isSpace n = true

/-- A blank is white space. -/
theorem isSpace_blank : ∀ n ∈ [0x20], isSpace n = true :=
  List.forall_mem_singleton.2 rfl

/-- The style of one line is blank. -/
theorem isBlank_line : Style.line.IsBlank where
  opening _ := fun _ hc => absurd hc List.not_mem_nil
  between _ := ⟨[0x20], rfl, isSpace_blank⟩
  closing _ := fun _ hc => absurd hc List.not_mem_nil

/-- The indented style is blank. -/
theorem isBlank_pretty : Style.pretty.IsBlank := by
  have hnewline (depth : Nat) :
      ∀ n ∈ 0xA :: List.replicate (2 * depth) 0x20, isSpace n = true :=
    List.forall_mem_cons.2 ⟨rfl, fun n hn => by rw [List.eq_of_mem_replicate hn]; rfl⟩
  exact ⟨fun depth => hnewline (depth + 1), fun depth => ⟨_, rfl, hnewline (depth + 1)⟩, hnewline⟩

/-- White space is skipped. -/
theorem skipSpace_append {gap : List Nat} (hgap : ∀ n ∈ gap, isSpace n = true) :
    skipSpace (gap ++ rest) = skipSpace rest :=
  List.dropWhile_append_of_pos hgap

/-- Where no white space is, none is skipped. -/
theorem skipSpace_cons {n : Nat} (hn : isSpace n = false) :
    skipSpace (n :: rest) = n :: rest :=
  List.dropWhile_cons_of_neg (by simp [hn])

/-- White space breaks a number off. -/
theorem breaks_append {gap : List Nat} (hgap : ∀ n ∈ gap, isSpace n = true)
    (hrest : Breaks rest) : Breaks (gap ++ rest) := by
  cases gap with
  | nil => exact hrest
  | cons c more =>
    have hc := hgap c (.head _)
    simp only [isSpace, Bool.or_eq_true, beq_iff_eq] at hc
    rcases hc with ((rfl | rfl) | rfl) | rfl <;> exact ⟨by decide, by decide, by decide, by decide⟩

/-! ## Documents without parts -/

variable {fuel : Nat} {cs : List Nat}

/-- A word is read as the document that it stands for. -/
theorem readValue_word {word : List Nat} {d : Document} (h : (word, d) ∈ words) :
    readValue (fuel + 1) (word ++ rest) = .ok (d, rest) := by
  simp only [words, List.mem_cons, Prod.mk.injEq, List.not_mem_nil, or_false] at h
  rcases h with ⟨rfl, rfl⟩ | ⟨rfl, rfl⟩ | ⟨rfl, rfl⟩ | ⟨rfl, rfl⟩ | ⟨rfl, rfl⟩ | ⟨rfl, rfl⟩ <;> rfl

/-- What is read as a number starts with a digit. -/
theorem readNumber_head {negative : Bool} {result : Document × List Nat}
    (h : readNumber negative cs = .ok result) : ∃ n more, cs = n :: more ∧ isDigit n = true := by
  cases cs with
  | nil => cases h
  | cons c more =>
    refine ⟨c, more, rfl, ?_⟩
    by_contra hc
    have hread : readDigits (c :: more) = none := by simp [readDigits, hc]
    unfold readNumber at h
    split at h
    · next hcs =>
      obtain rfl := List.head_eq_of_cons_eq hcs
      exact hc rfl
    · rw [hread] at h
      cases h

/-- A digit starts no word. -/
theorem readWord_of_isDigit {n : Nat} (hn : isDigit n = true) :
    readWord (n :: rest) = none ∧ readWord (0x2D :: n :: rest) = none := by
  have hne (w : Nat) (hw : isDigit w = false) : (w == n) = false :=
    beq_eq_false_iff_ne.2 fun h => Bool.false_ne_true (hw.symm.trans (h ▸ hn))
  simp [readWord, words, codesOf, codes, dropWord, hne, isDigit]

/-- A number is read as a document, with its sign or without. -/
theorem readValue_number {negative : Bool} {result : Document × List Nat}
    (h : readNumber negative cs = .ok result) :
    readValue (fuel + 1) (if negative then 0x2D :: cs else cs) = .ok result := by
  obtain ⟨c, more, rfl, hc⟩ := readNumber_head h
  obtain ⟨hunsigned, hsigned⟩ : readWord (c :: more) = none ∧ readWord (0x2D :: c :: more) = none :=
    readWord_of_isDigit hc
  have hne (w : Nat) (hw : isDigit w = false) : c ≠ w := fun h =>
    Bool.false_ne_true (hw.symm.trans (h ▸ hc))
  cases negative with
  | true =>
    unfold readValue
    simp [hsigned, h]
  | false =>
    change readValue (fuel + 1) (c :: more) = .ok result
    unfold readValue
    split
    · next hcs => exact absurd (List.head_eq_of_cons_eq hcs) (hne _ rfl)
    · next hcs => exact absurd (List.head_eq_of_cons_eq hcs) (hne _ rfl)
    · next hcs => exact absurd (List.head_eq_of_cons_eq hcs) (hne _ rfl)
    · rw [hunsigned]
      dsimp only
      split
      · next hcs => exact absurd (List.head_eq_of_cons_eq hcs) (hne _ rfl)
      · exact h

/-- An integer is read back. -/
theorem readValue_printInt {i : Int} (hi : Sized i)
    (hrest : Breaks rest) : readValue (fuel + 1) (printInt i ++ rest) = .ok (.int i, rest) := by
  have hprint : printInt i ++ rest = if decide (i < 0) = true then
      0x2D :: (codes (Nat.toDigits 10 i.natAbs) ++ rest)
      else codes (Nat.toDigits 10 i.natAbs) ++ rest := by
    unfold printInt
    by_cases hnegative : i < 0 <;> simp [hnegative]
  have hvalue : (if decide (i < 0) = true then -(i.natAbs : Int) else i.natAbs) = i := by
    simp only [decide_eq_true_eq]
    omega
  rw [hprint]
  refine (readValue_number (readNumber_printInt hi hrest)).trans ?_
  rw [hvalue]

/-- A floating-point number is read back. -/
theorem readValue_printFloat (x : Binary64) (hrest : Breaks rest) :
    readValue (fuel + 1) (printFloat x ++ rest) = .ok (.float x, rest) := by
  cases x with
  | nan => exact readValue_word (.tail _ (.tail _ (.tail _ (.head _))))
  | infinity negative =>
    cases negative with
    | false => exact readValue_word (.tail _ (.tail _ (.tail _ (.tail _ (.head _)))))
    | true => exact readValue_word (.tail _ (.tail _ (.tail _ (.tail _ (.tail _ (.head _))))))
  | finite negative scale fraction =>
    have hread := @readNumber_render scale fraction rest negative hrest
    simp only [printFloat, Binary64.render, codesOf, String.toList_ofList]
    cases negative with
    | false => exact readValue_number hread
    | true => exact readValue_number hread

/-- A text is read back with its surrogate pairs joined. -/
theorem readText_printText {text : List Nat} (htext : IsText text) (rest : List Nat) :
    readText ((text.flatMap printCode ++ 0x22 :: rest).length + 1)
      (text.flatMap printCode ++ 0x22 :: rest) = some (joinCodes text, rest) := by
  refine readText_print htext ?_
  have hcode (n : Nat) : 1 ≤ (printCode n).length := by
    unfold printCode
    split_ifs <;> exact Nat.succ_le_succ (Nat.zero_le _)
  have hlength : text.length ≤ (text.flatMap printCode).length := by
    rw [List.length_flatMap]
    refine (Nat.le_of_eq (List.length_map _).symm).trans (List.length_le_sum_of_one_le _ ?_)
    exact List.forall_mem_map.2 fun n _ => hcode n
  rw [List.length_append]
  omega

/-- A text is read back as a document. -/
theorem readValue_printText {text : List Nat} (htext : IsText text) :
    readValue (fuel + 1) (printText text ++ rest) = .ok (.text (joinCodes text), rest) := by
  have hread := readText_printText htext rest
  rw [printText, List.cons_append, List.append_assoc, List.singleton_append, readValue, hread]

/-- What is read as a document starts with neither white space nor a closing bracket. -/
theorem readValue_head {result : Document × List Nat} (h : readValue fuel cs = .ok result) :
    ∃ n more, cs = n :: more ∧ isSpace n = false ∧ n ≠ 0x5D := by
  cases fuel with
  | zero => cases h
  | succ fuel =>
    cases cs with
    | nil => cases h
    | cons c more =>
      refine ⟨c, more, rfl, ?_, ?_⟩
      · by_contra hc
        simp only [isSpace, Bool.not_eq_false, Bool.or_eq_true, beq_iff_eq] at hc
        rcases hc with ((rfl | rfl) | rfl) | rfl <;> cases h
      · rintro rfl
        cases h

/-- White space in front of a document is skipped. -/
theorem skipSpace_readValue {result : Document × List Nat} {gap : List Nat}
    (h : readValue fuel cs = .ok result) (hgap : ∀ n ∈ gap, isSpace n = true) :
    skipSpace (gap ++ cs) = cs := by
  obtain ⟨c, more, rfl, hc, -⟩ := readValue_head h
  rw [skipSpace_append hgap, skipSpace_cons hc]

/-! ## Arrays and objects -/

/-- With so much fuel every document that is not longer is read back. -/
def ReadsBack (style : Style) (fuel : Nat) : Prop :=
  ∀ (d : Document) (depth : Nat) (rest : List Nat), d.Obeys .legible → Breaks rest →
    (d.print style depth).length < fuel →
      readValue fuel (d.print style depth ++ rest) = .ok (d.joined, rest)

/-- The items behind the first one, or the closing bracket, break a number off. -/
theorem breaks_printItems (hstyle : style.IsBlank) (depth : Nat) (items : List Document)
    (rest : List Nat) :
    Breaks (printItems style depth items ++ (style.closing depth ++ 0x5D :: rest)) := by
  cases items with
  | nil =>
    have hclosing : Breaks (0x5D :: rest) := ⟨by decide, by decide, by decide, by decide⟩
    rw [printItems, List.nil_append]
    exact breaks_append (hstyle.closing depth) hclosing
  | cons item items =>
    obtain ⟨gap, hgap, -⟩ := hstyle.between depth
    rw [printItems, hgap]
    exact ⟨by decide, by decide, by decide, by decide⟩

/-- The members behind the first one, or the closing brace, break a number off. -/
theorem breaks_printMembers (hstyle : style.IsBlank) (depth : Nat)
    (members : List (List Nat × Document)) (rest : List Nat) :
    Breaks (printMembers style depth members ++ (style.closing depth ++ 0x7D :: rest)) := by
  cases members with
  | nil =>
    have hclosing : Breaks (0x7D :: rest) := ⟨by decide, by decide, by decide, by decide⟩
    rw [printMembers, List.nil_append]
    exact breaks_append (hstyle.closing depth) hclosing
  | cons member members =>
    obtain ⟨name, value⟩ := member
    obtain ⟨gap, hgap, -⟩ := hstyle.between depth
    rw [printMembers, hgap]
    exact ⟨by decide, by decide, by decide, by decide⟩

/-- The items of an array are read back. -/
theorem readItems_print (hstyle : style.IsBlank) (hread : ∀ k < fuel, ReadsBack style k)
    {item : Document} {items : List Document} (depth : Nat) (hitem : item.Obeys .legible)
    (hitems : ItemsObey .legible items)
    (hfuel : (item.print style (depth + 1)).length + (printItems style depth items).length + 1 <
      fuel) (rest : List Nat) :
    readItems fuel (item.print style (depth + 1) ++
        (printItems style depth items ++ (style.closing depth ++ 0x5D :: rest))) =
      .ok (joinItems (item :: items), rest) := by
  induction items generalizing item fuel with
  | nil =>
    obtain ⟨fuel, rfl⟩ : ∃ k, fuel = k + 1 := ⟨fuel - 1, by omega⟩
    have hfirst := hread fuel (Nat.lt_succ_self _) item (depth + 1) _ hitem
      (breaks_printItems hstyle depth [] rest) (by omega)
    rw [readItems, hfirst]
    dsimp only
    rw [printItems, List.nil_append, skipSpace_append (hstyle.closing depth),
      skipSpace_cons (by rfl)]
    rfl
  | cons second items ih =>
    obtain ⟨fuel, rfl⟩ : ∃ k, fuel = k + 1 := ⟨fuel - 1, by omega⟩
    obtain ⟨gap, hbetween, hgap⟩ := hstyle.between depth
    have hfirst := hread fuel (Nat.lt_succ_self _) item (depth + 1) _ hitem
      (breaks_printItems hstyle depth (second :: items) rest) (by omega)
    rw [printItems, hbetween] at hfuel
    simp only [List.length_append, List.length_cons] at hfuel
    have hsecond := hread (fuel - 1) (by omega) second (depth + 1) _ hitems.1
      (breaks_printItems hstyle depth items rest) (by omega)
    have hmore := ih (fun k hk => hread k (Nat.lt_succ_of_lt hk)) hitems.1 hitems.2 (by omega)
    rw [readItems, hfirst]
    dsimp only
    rw [printItems, hbetween]
    simp only [List.append_assoc, List.cons_append]
    rw [skipSpace_cons (by rfl)]
    change (readItems fuel (skipSpace _)).map _ = _
    rw [skipSpace_readValue hsecond hgap, hmore]
    rfl

/-- A member is read back, and what stands behind its value decides how the object goes on. -/
theorem readMembers_member {done : List (List Nat × Document)} {name : List Nat} {value : Document}
    {after : List Nat} (hname : IsText name)
    (hvalue : readValue fuel cs = .ok (value, rest)) :
    (skipSpace rest = 0x7D :: after →
      readMembers (fuel + 1) done (printText name ++ ([0x3A, 0x20] ++ cs)) =
        .ok (putMember done (joinCodes name) value, after)) ∧
    (skipSpace rest = 0x2C :: after →
      readMembers (fuel + 1) done (printText name ++ ([0x3A, 0x20] ++ cs)) =
        readMembers fuel (putMember done (joinCodes name) value) (skipSpace after)) := by
  have hcolon : skipSpace ([0x3A, 0x20] ++ cs) = 0x3A :: ([0x20] ++ cs) := rfl
  have hgap : skipSpace ([0x20] ++ cs) = cs := skipSpace_readValue hvalue isSpace_blank
  rw [printText, List.cons_append, List.append_assoc, List.singleton_append, readMembers,
    readText_printText hname _]
  constructor
  · intro hafter
    simp only [hcolon, hgap, hvalue, hafter]
  · intro hafter
    simp only [hcolon, hgap, hvalue, hafter]

/-- The members of an object are read back and written to those that were read before. -/
theorem readMembers_print (hstyle : style.IsBlank) (hread : ∀ k < fuel, ReadsBack style k)
    (done : List (List Nat × Document)) {members : List (List Nat × Document)} {name : List Nat}
    {value : Document} (depth : Nat) (hname : IsText name) (hvalue : value.Obeys .legible)
    (hmembers : MembersObey .legible members)
    (hfuel : (value.print style (depth + 1)).length +
      (printMembers style depth members).length + 1 < fuel) (rest : List Nat) :
    readMembers fuel done (printText name ++ ([0x3A, 0x20] ++ (value.print style (depth + 1) ++
        (printMembers style depth members ++ (style.closing depth ++ 0x7D :: rest))))) =
      .ok (mergeMembers done (joinMembers ((name, value) :: members)), rest) := by
  induction members generalizing done name value fuel with
  | nil =>
    obtain ⟨fuel, rfl⟩ : ∃ k, fuel = k + 1 := ⟨fuel - 1, by omega⟩
    have hfirst := hread fuel (Nat.lt_succ_self _) value (depth + 1) _ hvalue
      (breaks_printMembers hstyle depth [] rest) (by omega)
    refine (readMembers_member hname hfirst).1 ?_
    rw [printMembers, List.nil_append, skipSpace_append (hstyle.closing depth),
      skipSpace_cons (by rfl)]
  | cons second members ih =>
    obtain ⟨fuel, rfl⟩ : ∃ k, fuel = k + 1 := ⟨fuel - 1, by omega⟩
    obtain ⟨other, next⟩ := second
    obtain ⟨hother, hnext, hmembers⟩ := hmembers
    obtain ⟨gap, hbetween, hgap⟩ := hstyle.between depth
    have hfirst := hread fuel (Nat.lt_succ_self _) value (depth + 1) _ hvalue
      (breaks_printMembers hstyle depth ((other, next) :: members) rest) (by omega)
    rw [printMembers, hbetween] at hfuel
    simp only [List.length_append, List.length_cons] at hfuel
    have hmore := ih (fun k hk => hread k (Nat.lt_succ_of_lt hk))
      (putMember done (joinCodes name) value.joined)
      hother hnext hmembers (by omega)
    have hquote (more : List Nat) :
        skipSpace (gap ++ (printText other ++ more)) = printText other ++ more := by
      rw [skipSpace_append hgap]
      exact skipSpace_cons (by rfl)
    have hcomma : skipSpace (printMembers style depth ((other, next) :: members) ++
        (style.closing depth ++ 0x7D :: rest)) = 0x2C :: (gap ++ (printText other ++
          ([0x3A, 0x20] ++ (next.print style (depth + 1) ++ (printMembers style depth members ++
            (style.closing depth ++ 0x7D :: rest)))))) := by
      rw [printMembers, hbetween]
      simp only [List.append_assoc, List.cons_append]
      exact skipSpace_cons (by rfl)
    rw [(readMembers_member hname hfirst).2 hcomma, hquote]
    exact hmore

/-- An array is read with its items. -/
theorem readValue_array {n : Nat} {more : List Nat} {items : List Document}
    (hskip : skipSpace cs = n :: more) (hn : n ≠ 0x5D)
    (h : readItems fuel (n :: more) = .ok (items, rest)) :
    readValue (fuel + 1) (0x5B :: cs) = .ok (.array items, rest) := by
  rw [readValue, hskip]
  split
  · next hcs => exact absurd (List.head_eq_of_cons_eq hcs) hn
  · rw [h]
    rfl

/-- An object is read with its members. -/
theorem readValue_object {more : List Nat} {members : List (List Nat × Document)}
    (hskip : skipSpace cs = 0x22 :: more)
    (h : readMembers fuel [] (0x22 :: more) = .ok (members, rest)) :
    readValue (fuel + 1) (0x7B :: cs) = .ok (.object members, rest) := by
  rw [readValue, hskip]
  change (readMembers fuel [] _).map _ = _
  rw [h]
  rfl

/-- An object is read back with its members merged. -/
theorem readValue_printMembers (hstyle : style.IsBlank) (hread : ∀ k < fuel, ReadsBack style k)
    {members : List (List Nat × Document)} (depth : Nat) (hmembers : MembersObey .legible members)
    (hfuel : ((Document.object members).print style depth).length < fuel + 1) (rest : List Nat) :
    readValue (fuel + 1) ((Document.object members).print style depth ++ rest) =
      .ok ((Document.object members).joined, rest) := by
  cases members with
  | nil => rfl
  | cons member members =>
    obtain ⟨name, value⟩ := member
    obtain ⟨hname, hvalue, hmembers⟩ := hmembers
    rw [Document.print] at hfuel ⊢
    simp only [List.length_cons, List.length_append] at hfuel
    simp only [List.cons_append, List.append_assoc, List.nil_append]
    have hmore := readMembers_print hstyle hread [] depth hname hvalue hmembers (by omega) rest
    refine readValue_object ?_ hmore
    rw [skipSpace_append (hstyle.opening depth)]
    exact skipSpace_cons (by rfl)

/-- With any fuel every legible document that is short enough is read back. -/
theorem readsBack (hstyle : style.IsBlank) (fuel : Nat) : ReadsBack style fuel := by
  induction fuel using Nat.strongRecOn with
  | ind fuel ih =>
    intro d depth rest hd hrest hfuel
    obtain ⟨fuel, rfl⟩ : ∃ k, fuel = k + 1 := ⟨fuel - 1, by omega⟩
    have hbelow (k : Nat) (hk : k < fuel) : ReadsBack style k := ih k (Nat.lt_succ_of_lt hk)
    cases d with
    | null => exact readValue_word (.head _)
    | bool b =>
      cases b with
      | false => exact readValue_word (.tail _ (.tail _ (.head _)))
      | true => exact readValue_word (.tail _ (.head _))
    | int i => exact readValue_printInt hd hrest
    | float x => exact readValue_printFloat x hrest
    | text text => exact readValue_printText hd
    | array items =>
      cases items with
      | nil => rfl
      | cons item items =>
        obtain ⟨hitem, hitems⟩ := hd
        rw [Document.print] at hfuel ⊢
        simp only [List.length_cons, List.length_append] at hfuel
        simp only [List.cons_append, List.append_assoc, List.nil_append]
        have hfirst := ih fuel (Nat.lt_succ_self _) item (depth + 1) _ hitem
          (breaks_printItems hstyle depth items rest) (by omega)
        have hmore := readItems_print hstyle hbelow depth hitem hitems (by omega) rest
        have hskip := skipSpace_readValue hfirst (hstyle.opening depth)
        obtain ⟨n, more, hcs, -, hn⟩ := readValue_head hfirst
        rw [hcs] at hmore hskip ⊢
        exact readValue_array hskip hn hmore
    | object members => exact readValue_printMembers hstyle hbelow depth hd.2 hfuel rest

/-- What is read from the whole of a text is read. -/
theorem readCodes_of_readValue {d : Document} (h : readValue (cs.length + 1) cs = .ok (d, [])) :
    readCodes cs = .ok d := by
  have hskip := skipSpace_readValue h (fun _ hn => absurd hn List.not_mem_nil)
  rw [List.nil_append] at hskip
  rw [readCodes, hskip, h]
  rfl

/-- Every legible document is read back from its written form with its surrogate pairs joined. -/
theorem read_print (hstyle : style.IsBlank) {d : Document} (hd : d.Obeys .legible) :
    readCodes (d.print style 0) = .ok d.joined := by
  have hread := readsBack hstyle _ d 0 [] hd trivial (Nat.lt_succ_self _)
  rw [List.append_nil] at hread
  exact readCodes_of_readValue hread

/-- Of members with the same name an object that is read back holds one, in the place of the first
and with the value of the last. -/
theorem read_printMembers (hstyle : style.IsBlank) {members : List (List Nat × Document)}
    (hmembers : (Document.object members).Obeys .legible) : ∃ held,
      readCodes ((Document.object members).print style 0) = .ok (.object held) ∧
        held.map (·.1) = ((joinMembers members).map (·.1)).eraseDups ∧
        ∀ name, held.lookup name = (joinMembers members).reverse.lookup name :=
  ⟨_, read_print hstyle hmembers, names_mergeMembers _, lookup_mergeMembers _⟩

end SyncForm.Json
