import Dialogue.Json.Printer
import Dialogue.Json.Reader
import Dialogue.Text.Lines
import Mathlib.Data.List.Basic
namespace Dialogue

namespace JsonNumber

structure Proper (x : JsonNumber) : Prop where
  ne_nil : x.whole ≠ []
  whole : ∀ c ∈ x.whole, c.isDigit = true
  lead : x.whole.head? = some '0' → x.whole.length = 1
  fraction : ∀ c ∈ x.fraction, c.isDigit = true

theorem isDigit_toDigits (n : Nat) : ∀ c ∈ Nat.toDigits 10 n, c.isDigit = true := by
  intro c hc
  exact Nat.isDigit_of_mem_toDigits (by decide) (by decide) hc

theorem eq_zero_of_head? {n : Nat} (h : (Nat.toDigits 10 n).head? = some '0') : n = 0 := by
  induction n using Nat.strongRecOn with
  | _ n ih =>
  rw [Nat.toDigits_eq_if (by decide)] at h
  split at h
  · next hn =>
    have hd : ∀ n < 10, [n.digitChar].head? = some '0' → n = 0 := by decide
    exact hd n hn h
  · next hn =>
    have hp : 0 < n / 10 := Nat.div_pos (Nat.le_of_not_lt hn) (by decide)
    rw [List.head?_append_of_ne_nil _ Nat.toDigits_ne_nil] at h
    have hz := ih (n / 10) (Nat.div_lt_self (by omega) (by decide)) h
    exact absurd hz (Nat.ne_of_gt hp)

theorem proper_ofNat (n : Nat) : (ofNat n).Proper where
  ne_nil := Nat.toDigits_ne_nil
  whole := isDigit_toDigits n
  lead h := by
    cases eq_zero_of_head? h
    rfl
  fraction := nofun

end JsonNumber

namespace Json

/-- What may stand behind a value. -/
def Ends (r : List Char) : Prop :=
  ∀ c ∈ r.head?, c = ',' ∨ c = ']' ∨ c = '}'

section Numbers

open JsonNumber

variable {x : JsonNumber} {ds r : List Char}

theorem Ends.not_digit (h : Ends r) : ∀ c ∈ r.head?, c.isDigit = false := by
  intro c hc
  rcases h c hc with rfl | rfl | rfl <;> rfl

theorem append_ne_cons {c : Char} (hn : ds ≠ []) (hd : ∀ c ∈ ds, c.isDigit = true)
    (hc : c.isDigit = false) (r t : List Char) : ds ++ r ≠ c :: t := by
  cases ds with
  | nil => exact absurd rfl hn
  | cons d ds =>
    intro h
    have hd : d.isDigit = true := hd d List.mem_cons_self
    rw [List.cons_append, List.cons.injEq] at h
    rw [h.1, hc] at hd
    cases hd

def exponentText : Option Int → List Char
  | none => []
  | some (.ofNat n) => 'e' :: Nat.toDigits 10 n
  | some (.negSucc n) => 'e' :: '-' :: Nat.toDigits 10 (n + 1)

theorem toList_exponent (e : Option Int) :
    (e.elim "" fun e => "e" ++ toString e).toList = exponentText e := by
  cases e with
  | none => rfl
  | some e =>
    rw [Option.elim_some, String.toList_append]
    cases e with
    | ofNat n => exact congrArg ('e' :: ·) String.toList_ofList
    | negSucc n =>
      have ht : (toString (Int.negSucc n)).toList = '-' :: Nat.toDigits 10 (n + 1) := by
        rw [show toString (Int.negSucc n) = "-" ++ (n + 1).repr from rfl, String.toList_append]
        exact congrArg ('-' :: ·) String.toList_ofList
      rw [ht]
      rfl

theorem readExponent?_exponentText (e : Option Int) (h : Ends r) :
    readExponent? (exponentText e ++ r) = some (e, r) := by
  cases e with
  | none =>
    cases r with
    | nil => rfl
    | cons c r =>
      have hc : ¬ (c = 'e' ∨ c = 'E') := by
        rcases h c rfl with rfl | rfl | rfl <;> decide
      unfold readExponent?
      exact if_neg hc
  | some e =>
    cases e with
    | ofNat n =>
      obtain ⟨ht, hd⟩ := Text.span_append (isDigit_toDigits n) h.not_digit
      have hn (c : Char) := append_ne_cons (c := c) Nat.toDigits_ne_nil (isDigit_toDigits n)
      rw [exponentText, List.cons_append, readExponent?, if_pos (.inl rfl)]
      · simp only [ht, hd, Nat.toDigits_ne_nil, Decimal.digitsValue_toDigits]
        rfl
      · exact hn '-' rfl r
      · exact hn '+' rfl r
    | negSucc n =>
      obtain ⟨ht, hd⟩ := Text.span_append (isDigit_toDigits (n + 1)) h.not_digit
      rw [exponentText, List.cons_append, List.cons_append, readExponent?, if_pos (.inl rfl)]
      simp only [ht, hd, Nat.toDigits_ne_nil, Decimal.digitsValue_toDigits]
      rfl

def fractionText : List Char → List Char
  | [] => []
  | ds => '.' :: ds

/-- What stands behind the whole part of a number neither goes on with its digits nor opens
anything but a fraction or an exponent. -/
theorem head?_exponentText (e : Option Int) (h : Ends r) :
    ∀ c ∈ (exponentText e ++ r).head?, c.isDigit = false ∧ c ≠ '.' := by
  intro c hc
  cases e with
  | none => rcases h c hc with rfl | rfl | rfl <;> decide
  | some e =>
    have he : c = 'e' := by
      cases e <;> exact (Option.some.inj hc).symm
    subst he
    decide

theorem head?_fractionText (ds : List Char) (e : Option Int) (h : Ends r) :
    ∀ c ∈ (fractionText ds ++ (exponentText e ++ r)).head?, c.isDigit = false := by
  intro c hc
  cases ds with
  | nil => exact (head?_exponentText e h c hc).1
  | cons d ds =>
    have he : c = '.' := (Option.some.inj hc).symm
    subst he
    rfl

theorem readFraction?_fractionText (e : Option Int) (hd : ∀ c ∈ ds, c.isDigit = true)
    (h : Ends r) :
    readFraction? (fractionText ds ++ (exponentText e ++ r)) = some (ds, exponentText e ++ r) := by
  have hr := head?_exponentText e h
  generalize exponentText e ++ r = t at hr
  cases ds with
  | nil =>
    cases t with
    | nil => rfl
    | cons c t =>
      rw [fractionText, List.nil_append, readFraction?]
      intro t he
      cases he
      exact (hr '.' rfl).2 rfl
  | cons d ds =>
    obtain ⟨ht, hd⟩ := Text.span_append hd fun c hc => (hr c hc).1
    rw [fractionText, List.cons_append, readFraction?, ht, hd, if_neg (List.cons_ne_nil d ds)]
    nofun

theorem toList_printNumber (x : JsonNumber) :
    (printNumber x).toList = (if x.negative then ['-'] else []) ++
      (x.whole ++ (fractionText x.fraction ++ exponentText x.exponent)) := by
  have hs : (if x.negative then "-" else "").toList = if x.negative then ['-'] else [] := by
    cases x.negative <;> rfl
  have hf : (if x.fraction = [] then "" else "." ++ String.ofList x.fraction).toList =
      fractionText x.fraction := by
    cases x.fraction with
    | nil => rfl
    | cons d ds =>
      rw [if_neg (List.cons_ne_nil d ds), String.toList_append]
      exact congrArg ('.' :: ·) String.toList_ofList
  simp only [printNumber, String.toList_append, String.toList_ofList, hs, hf, toList_exponent,
    List.append_assoc]

theorem readNumber?_printNumber (hx : x.Proper) (h : Ends r) :
    readNumber? ((printNumber x).toList ++ r) = some (x, r) := by
  obtain ⟨negative, whole, fraction, exponent⟩ := x
  obtain ⟨hne, hw, hz, hf⟩ := hx
  obtain ⟨ht, hd⟩ := Text.span_append hw (head?_fractionText fraction exponent h)
  have hl : ¬ (whole = [] ∨ (whole.head? = some '0' ∧ whole.length ≠ 1)) := by
    intro hl
    cases hl with
    | inl he => exact hne he
    | inr he => exact he.2 (hz he.1)
  have hf := readFraction?_fractionText exponent hf h
  have he := readExponent?_exponentText exponent h
  simp only [toList_printNumber, List.append_assoc]
  cases negative with
  | false =>
    rw [if_neg Bool.false_ne_true, List.nil_append, readNumber?]
    · simp only [ht, hd, if_neg hl, hf, he, Option.bind_eq_bind, Option.bind_some]
    · exact append_ne_cons hne hw rfl _
  | true =>
    rw [if_pos rfl, List.cons_append, List.nil_append, readNumber?]
    simp only [ht, hd, if_neg hl, hf, he, Option.bind_eq_bind, Option.bind_some]

end Numbers

section Strings

def pieceOf (c : Char) : Piece :=
  if shortEscape? c = none ∧ c.toNat < 32 then .unit c.toNat else .char c

theorem escape?_shortEscape {c e : Char} (h : shortEscape? c = some e) :
    escape? e = some c ∧ e ≠ 'u' := by
  unfold shortEscape? at h
  split at h <;> cases h <;> decide

theorem hex?_escape : ∀ n < 32, hex? ['0', '0', hexChar (n / 16), hexChar (n % 16)] = some n := by
  decide

theorem ne_of_shortEscape?_eq_none {c : Char} (h : shortEscape? c = none) : c ≠ '"' ∧ c ≠ '\\' := by
  constructor
  all_goals
    intro he
    rw [he] at h
    cases h

theorem pieces?_quoteChar (c : Char) (s : List Char) :
    pieces? (quoteChar c ++ s) = (pieces? s).map fun (ps, r) => (pieceOf c :: ps, r) := by
  rw [quoteChar, pieceOf]
  cases hc : shortEscape? c with
  | some e =>
    obtain ⟨he, hu⟩ := escape?_shortEscape hc
    dsimp only [List.cons_append, List.nil_append]
    rw [if_neg fun h => Option.some_ne_none e h.1, pieces?, he]
    · cases pieces? s <;> rfl
    · intro _ _ _ _ _ h
      exact absurd h hu
  | none =>
    obtain ⟨hq, hb⟩ := ne_of_shortEscape?_eq_none hc
    dsimp only
    by_cases hn : c.toNat < 32
    · rw [if_pos hn, if_pos ⟨rfl, hn⟩]
      dsimp only [List.cons_append, List.nil_append]
      rw [pieces?, hex?_escape c.toNat hn]
      cases pieces? s <;> rfl
    · rw [if_neg hn, if_neg fun h => hn h.2, List.cons_append, List.nil_append, pieces?, if_neg]
      · cases pieces? s <;> rfl
      · exact not_or.mpr ⟨hn, hb⟩
      · exact hq
      · intro _ _ _ _ _ h
        exact absurd h hb
      · intro _ _ h
        exact absurd h hb

theorem join?_pieceOf (c : Char) (ps : List Piece) :
    join? (pieceOf c :: ps) = (join? ps).map (c :: ·) := by
  rw [pieceOf]
  split
  · next h =>
    have hl : ¬ (0xDC00 ≤ c.toNat ∧ c.toNat < 0xE000) := by omega
    have hh : ¬ (0xD800 ≤ c.toNat ∧ c.toNat < 0xDC00) := by omega
    rw [join?.eq_def (.unit c.toNat :: ps)]
    dsimp only
    rw [if_neg hl, if_neg hh, Char.ofNat_toNat]
  · rw [join?]

theorem pieces?_flatMap (cs r : List Char) :
    pieces? (cs.flatMap quoteChar ++ '"' :: r) = some (cs.map pieceOf, r) := by
  induction cs with
  | nil => rfl
  | cons c cs ih =>
    rw [List.flatMap_cons, List.append_assoc, pieces?_quoteChar, ih]
    rfl

theorem join?_map (cs : List Char) : join? (cs.map pieceOf) = some cs := by
  induction cs with
  | nil => rfl
  | cons c cs ih =>
    rw [List.map_cons, join?_pieceOf, ih]
    rfl

def quotedRest : Option String → List Char
  | some s => s.toList.flatMap quoteChar ++ ['"']
  | none => ['\\', 'u', 'd', '8', '0', '0', '"']

theorem toList_quoteText (s : Option String) : (quoteText s).toList = '"' :: quotedRest s := by
  cases s with
  | none => rfl
  | some s => exact String.toList_ofList

theorem readString?_quotedRest (s : Option String) (r : List Char) :
    readString? (quotedRest s ++ r) = some (s, r) := by
  cases s with
  | none =>
    have hp : pieces? (quotedRest none ++ r) = some ([.unit 0xD800], r) := by
      simp only [quotedRest, List.cons_append, List.nil_append]
      rw [pieces?, pieces?]
      rfl
    rw [readString?, hp]
    rfl
  | some s =>
    rw [readString?, quotedRest, List.append_assoc, List.cons_append, List.nil_append,
      pieces?_flatMap]
    dsimp only [Option.map_some]
    rw [join?_map, Option.map_some, String.ofList_toList]

end Strings

/-- Values all of whose numbers may be read. -/
inductive Proper : Json → Prop
  | null : Proper .null
  | bool (b : Bool) : Proper (.bool b)
  | number {n : JsonNumber} (h : n.Proper) : Proper (.number n)
  | string (s : Option String) : Proper (.string s)
  | array {items : List Json} (h : ∀ item ∈ items, Proper item) : Proper (.array items)
  | object {members : List (Option String × Json)} (h : ∀ m ∈ members, Proper m.2) :
    Proper (.object members)

theorem proper_text (s : String) : (text s).Proper :=
  .string _

theorem proper_nat (n : Nat) : (nat n).Proper :=
  .number (JsonNumber.proper_ofNat n)

theorem proper_record {ms : List (String × Json)} (h : ∀ m ∈ ms, m.2.Proper) :
    (record ms).Proper := by
  apply Proper.object
  rw [List.forall_mem_map]
  exact h

theorem proper_ofList {α : Type} {f : α → Json} (h : ∀ a, (f a).Proper) (xs : List α) :
    (ofList f xs).Proper := by
  apply Proper.array
  rw [List.forall_mem_map]
  intro a _
  exact h a

theorem proper_ofOption {α : Type} {f : α → Json} (h : ∀ a, (f a).Proper) (o : Option α) :
    (ofOption f o).Proper := by
  cases o with
  | none => exact .null
  | some a => exact h a

section Values

/-- The text of a value is read back up to its end. -/
def Reads (j : Json) : Prop :=
  ∀ fuel r, 2 * (print j).toList.length ≤ fuel → Ends r →
    readValue? fuel ((print j).toList ++ r) = some (j, r)

def itemsText (items : List Json) : List Char :=
  (",".intercalate (printItems items)).toList

def membersText (members : List (Option String × Json)) : List Char :=
  (",".intercalate (printMembers members)).toList

theorem toList_intercalate_cons (a b : String) (l : List String) :
    (",".intercalate (a :: b :: l)).toList =
      a.toList ++ ',' :: (",".intercalate (b :: l)).toList := by
  simp [String.toList_intercalate]

theorem itemsText_singleton (j : Json) : itemsText [j] = (print j).toList := by
  rw [itemsText, printItems, printItems, String.intercalate_singleton]

theorem itemsText_cons (j k : Json) (items : List Json) :
    itemsText (j :: k :: items) = (print j).toList ++ ',' :: itemsText (k :: items) :=
  toList_intercalate_cons _ _ _

theorem toList_print_array (items : List Json) :
    (print (.array items)).toList = '[' :: (itemsText items ++ [']']) := by
  rw [print, String.toList_append, String.toList_append]
  rfl

theorem skipSpace_cons {c : Char} (h : isSpace c = false) (s : List Char) :
    skipSpace (c :: s) = c :: s :=
  List.dropWhile_cons_of_neg (Bool.eq_false_iff.mp h)

theorem ends_cons {c : Char} (r : List Char) (h : c = ',' ∨ c = ']' ∨ c = '}') : Ends (c :: r) := by
  intro d hd
  cases hd
  exact h

variable {fuel : Nat} {s t r : List Char}

theorem readItems?_close {j : Json} (h : readValue? fuel s = some (j, ']' :: r)) :
    readItems? (fuel + 1) s = some ([j], r) := by
  rw [readItems?, h]
  rfl

theorem readItems?_comma {j : Json} {items : List Json}
    (h : readValue? fuel s = some (j, ',' :: t)) (hi : readItems? fuel t = some (items, r)) :
    readItems? (fuel + 1) s = some (j :: items, r) := by
  rw [readItems?, h]
  change (readItems? fuel t >>= fun p => some (j :: p.1, p.2)) = _
  rw [hi]
  rfl

theorem readItems?_itemsText {items : List Json} (hne : items ≠ []) (h : ∀ j ∈ items, Reads j)
    (hf : 2 * (itemsText items).length < fuel) (r : List Char) :
    readItems? fuel (itemsText items ++ ']' :: r) = some (items, r) := by
  -- The call for the list stands above the call for its first item, hence the strict bound.
  induction items generalizing fuel with
  | nil => exact absurd rfl hne
  | cons j items ih =>
    obtain ⟨hj, hi⟩ := List.forall_mem_cons.mp h
    cases fuel with
    | zero => exact absurd hf (Nat.not_lt_zero _)
    | succ fuel =>
    rw [Nat.lt_succ_iff] at hf
    cases items with
    | nil =>
      rw [itemsText_singleton] at hf ⊢
      exact readItems?_close (hj fuel _ hf (ends_cons r (by decide)))
    | cons k items =>
      rw [itemsText_cons] at hf ⊢
      rw [List.length_append, List.length_cons] at hf
      rw [List.append_assoc, List.cons_append]
      apply readItems?_comma (hj fuel _ (by omega) (ends_cons _ (by decide)))
      exact ih (List.cons_ne_nil k items) hi (by omega)

theorem toList_print_object (members : List (Option String × Json)) :
    (print (.object members)).toList = '{' :: (membersText members ++ ['}']) := by
  rw [print, String.toList_append, String.toList_append]
  rfl

theorem toList_member (key : Option String) (j : Json) :
    (quoteText key ++ ":" ++ print j).toList =
      '"' :: (quotedRest key ++ ':' :: (print j).toList) := by
  rw [String.toList_append, String.toList_append, toList_quoteText, List.append_assoc]
  rfl

theorem membersText_singleton (key : Option String) (j : Json) :
    membersText [(key, j)] = '"' :: (quotedRest key ++ ':' :: (print j).toList) := by
  rw [membersText, printMembers, printMembers, String.intercalate_singleton, toList_member]

theorem membersText_cons (key : Option String) (j : Json) (m : Option String × Json)
    (members : List (Option String × Json)) :
    membersText ((key, j) :: m :: members) =
      '"' :: (quotedRest key ++ ':' :: ((print j).toList ++ ',' :: membersText (m :: members))) := by
  rw [membersText, printMembers, membersText, printMembers, toList_intercalate_cons, toList_member,
    List.cons_append, List.append_assoc, List.cons_append]

theorem readMembers?_close {key : Option String} {j : Json}
    (hk : readString? s = some (key, ':' :: t)) (h : readValue? fuel t = some (j, '}' :: r)) :
    readMembers? (fuel + 1) ('"' :: s) = some ([(key, j)], r) := by
  rw [readMembers?]
  change (readString? s >>= _) = _
  rw [hk]
  change (readValue? fuel t >>= _) = _
  rw [h]
  rfl

theorem readMembers?_comma {key : Option String} {j : Json} {members : List (Option String × Json)}
    {u : List Char} (hk : readString? s = some (key, ':' :: t))
    (h : readValue? fuel t = some (j, ',' :: u)) (hm : readMembers? fuel u = some (members, r)) :
    readMembers? (fuel + 1) ('"' :: s) = some ((key, j) :: members, r) := by
  rw [readMembers?]
  change (readString? s >>= _) = _
  rw [hk]
  change (readValue? fuel t >>= _) = _
  rw [h]
  change (readMembers? fuel u >>= _) = _
  rw [hm]
  rfl

theorem readMembers?_membersText {members : List (Option String × Json)} (hne : members ≠ [])
    (h : ∀ m ∈ members, Reads m.2) (hf : 2 * (membersText members).length < fuel)
    (r : List Char) :
    readMembers? fuel (membersText members ++ '}' :: r) = some (members, r) := by
  induction members generalizing fuel with
  | nil => exact absurd rfl hne
  | cons m members ih =>
    obtain ⟨key, j⟩ := m
    rw [List.forall_mem_cons] at h
    have hj : Reads j := h.1
    cases fuel with
    | zero => exact absurd hf (Nat.not_lt_zero _)
    | succ fuel =>
    rw [Nat.lt_succ_iff] at hf
    cases members with
    | nil =>
      rw [membersText_singleton] at hf ⊢
      rw [List.length_cons, List.length_append, List.length_cons] at hf
      rw [List.cons_append, List.append_assoc, List.cons_append]
      apply readMembers?_close (readString?_quotedRest key _)
      exact hj fuel _ (by omega) (ends_cons r (by decide))
    | cons n members =>
      rw [membersText_cons] at hf ⊢
      rw [List.length_cons, List.length_append, List.length_cons, List.length_append,
        List.length_cons] at hf
      rw [List.cons_append, List.append_assoc, List.cons_append, List.append_assoc,
        List.cons_append]
      apply readMembers?_comma (readString?_quotedRest key _)
      · exact hj fuel _ (by omega) (ends_cons _ (by decide))
      · exact ih (List.cons_ne_nil n members) h.2 (by omega)

def opensNumber (c : Char) : Bool :=
  c == '-' || c.isDigit

theorem exists_opensNumber {x : JsonNumber} (hx : x.Proper) :
    ∃ c t, (printNumber x).toList = c :: t ∧ opensNumber c = true := by
  rw [toList_printNumber]
  cases x.negative with
  | true => exact ⟨_, _, rfl, rfl⟩
  | false =>
    cases hw : x.whole with
    | nil => exact absurd hw hx.ne_nil
    | cons c ds =>
      have hc : c.isDigit = true := hx.whole c (hw ▸ List.mem_cons_self)
      refine ⟨c, _, rfl, ?_⟩
      rw [opensNumber, hc, Bool.or_true]

theorem isSpace_of_opensNumber {c : Char} (h : opensNumber c = true) : isSpace c = false := by
  rw [Bool.eq_false_iff]
  intro hs
  simp only [isSpace, Bool.or_eq_true, beq_iff_eq] at hs
  rcases hs with ((rfl | rfl) | rfl) | rfl <;> cases h

theorem readValue?_number {c : Char} (h : opensNumber c = true) :
    readValue? (fuel + 1) (c :: s) =
      (readNumber? (c :: s)).map fun (n, rest) => (.number n, rest) := by
  rw [readValue?, skipSpace_cons (isSpace_of_opensNumber h)]
  split
  case h_8 => rfl
  case h_1 he => cases he
  all_goals
    next he =>
    cases he
    cases h

theorem exists_head {j : Json} (h : j.Proper) :
    ∃ c t, (print j).toList = c :: t ∧ isSpace c = false ∧ c ≠ ']' := by
  cases h with
  | null => exact ⟨_, _, rfl, rfl, by decide⟩
  | bool b => cases b <;> exact ⟨_, _, rfl, rfl, by decide⟩
  | string s => exact ⟨_, _, toList_quoteText s, rfl, by decide⟩
  | array _ => exact ⟨_, _, toList_print_array _, rfl, by decide⟩
  | object _ => exact ⟨_, _, toList_print_object _, rfl, by decide⟩
  | number h =>
    obtain ⟨c, t, ht, hc⟩ := exists_opensNumber h
    refine ⟨c, t, ht, isSpace_of_opensNumber hc, ?_⟩
    rintro rfl
    cases hc

theorem readValue?_items {items : List Json} {c : Char} (hc : isSpace c = false ∧ c ≠ ']')
    (h : readItems? fuel (c :: s) = some (items, r)) :
    readValue? (fuel + 1) ('[' :: c :: s) = some (.array items, r) := by
  rw [readValue?, skipSpace_cons rfl]
  simp only [skipSpace_cons hc.1]
  split
  · next he =>
    cases he
    exact absurd rfl hc.2
  · rw [h]
    rfl

theorem readValue?_members {members : List (Option String × Json)}
    (h : readMembers? fuel ('"' :: s) = some (members, r)) :
    readValue? (fuel + 1) ('{' :: '"' :: s) = some (.object members, r) := by
  rw [readValue?, skipSpace_cons rfl]
  change (readMembers? fuel ('"' :: s)).map _ = _
  rw [h]
  rfl

theorem readWord?_append (word : String) (value : Json) (r : List Char) :
    readWord? word value (word.toList ++ r) = some (value, r) := by
  rw [readWord?, if_pos (List.prefix_append _ _), ← String.length_toList, List.drop_left]

theorem reads_null : Reads .null := by
  intro fuel r hf _
  cases fuel with
  | zero => cases hf
  | succ fuel =>
  rw [readValue?]
  exact readWord?_append "null" .null r

theorem reads_bool (b : Bool) : Reads (.bool b) := by
  intro fuel r hf _
  cases fuel with
  | zero => cases b <;> cases hf
  | succ fuel =>
  cases b with
  | false =>
    rw [readValue?]
    exact readWord?_append "false" (.bool false) r
  | true =>
    rw [readValue?]
    exact readWord?_append "true" (.bool true) r

theorem reads_number {x : JsonNumber} (hx : x.Proper) : Reads (.number x) := by
  intro fuel r hf hr
  obtain ⟨c, t, ht, hc⟩ := exists_opensNumber hx
  have hn := readNumber?_printNumber hx hr
  rw [ht, List.cons_append] at hn
  rw [print, ht] at hf ⊢
  cases fuel with
  | zero => cases hf
  | succ fuel =>
  rw [List.cons_append, readValue?_number hc, hn]
  rfl

theorem reads_string (s : Option String) : Reads (.string s) := by
  intro fuel r hf _
  rw [print, toList_quoteText] at hf ⊢
  cases fuel with
  | zero => cases hf
  | succ fuel =>
  rw [readValue?, List.cons_append, skipSpace_cons rfl]
  change (readString? (quotedRest s ++ r)).map _ = _
  rw [readString?_quotedRest]
  rfl

theorem itemsText_cons_head {j : Json} (hj : j.Proper) (items : List Json) :
    ∃ c t, itemsText (j :: items) = c :: t ∧ isSpace c = false ∧ c ≠ ']' := by
  obtain ⟨c, t, ht, hc⟩ := exists_head hj
  cases items with
  | nil =>
    rw [itemsText_singleton]
    exact ⟨c, t, ht, hc⟩
  | cons k items =>
    rw [itemsText_cons, ht]
    exact ⟨c, _, rfl, hc⟩

theorem reads_array {items : List Json} (hp : ∀ j ∈ items, j.Proper) (h : ∀ j ∈ items, Reads j) :
    Reads (.array items) := by
  intro fuel r hf _
  rw [toList_print_array] at hf ⊢
  cases fuel with
  | zero => cases hf
  | succ fuel =>
  rw [List.length_cons, List.length_append] at hf
  rw [List.cons_append, List.append_assoc]
  cases items with
  | nil =>
    rw [readValue?]
    rfl
  | cons j items =>
    have hb : 2 * (itemsText (j :: items)).length < fuel := by omega
    have hr := readItems?_itemsText (List.cons_ne_nil j items) h hb r
    obtain ⟨c, t, ht, hc⟩ := itemsText_cons_head (hp j List.mem_cons_self) items
    rw [ht] at hr ⊢
    exact readValue?_items hc hr

theorem membersText_cons_head (m : Option String × Json) (members : List (Option String × Json)) :
    ∃ t, membersText (m :: members) = '"' :: t := by
  cases members with
  | nil => exact ⟨_, membersText_singleton m.1 m.2⟩
  | cons n members => exact ⟨_, membersText_cons m.1 m.2 n members⟩

theorem reads_object {members : List (Option String × Json)} (h : ∀ m ∈ members, Reads m.2) :
    Reads (.object members) := by
  intro fuel r hf _
  rw [toList_print_object] at hf ⊢
  cases fuel with
  | zero => cases hf
  | succ fuel =>
  rw [List.length_cons, List.length_append] at hf
  rw [List.cons_append, List.append_assoc]
  cases members with
  | nil =>
    rw [readValue?]
    rfl
  | cons m members =>
    have hb : 2 * (membersText (m :: members)).length < fuel := by omega
    have hr := readMembers?_membersText (List.cons_ne_nil m members) h hb r
    obtain ⟨t, ht⟩ := membersText_cons_head m members
    rw [ht] at hr ⊢
    exact readValue?_members hr

theorem Proper.reads {j : Json} (h : j.Proper) : j.Reads := by
  induction h with
  | null => exact reads_null
  | bool b => exact reads_bool b
  | number h => exact reads_number h
  | string s => exact reads_string s
  | array h ih => exact reads_array h ih
  | object h ih => exact reads_object ih

end Values

/-- Every value is read from the text that is printed for it. -/
theorem read?_print {j : Json} (h : j.Proper) : read? (print j) = some j := by
  have hr := h.reads (2 * (print j).toList.length + 2) [] (by omega) nofun
  rw [List.append_nil] at hr
  rw [read?, hr]
  rfl

end Json

end Dialogue
