import Playfield.Json.Printer
import Playfield.Proofs.Json.Codec

/-! JSON text. A document without doubles, whose whole numbers have 64 bits, is written without control
characters and read back from what was written. Each part is read up to its own end, whatever stands behind. -/
namespace Playfield.Json

/-- The document has no doubles, and its whole numbers are kept as they are when they are read. -/
inductive Exact : Json → Prop
  | null : Exact .null
  | bool (b : Bool) : Exact (.bool b)
  | int {n : Int} (h : Bounds.leastInt64 ≤ n ∧ n < Bounds.word64) : Exact (.int n)
  | string (s : String) : Exact (.string s)
  | array {items : List Json} (h : ∀ j ∈ items, Exact j) : Exact (.array items)
  | object {members : List (String × Json)} (h : ∀ m ∈ members, Exact m.2) : Exact (.object members)

namespace Reader

/-- What stands behind a number ends it. -/
def Stops (rest : List Char) : Prop := ∀ c ∈ rest.head?, digit? c = none ∧ c ≠ '.' ∧ c ≠ 'e' ∧ c ≠ 'E'

theorem stops_nil : Stops [] := nofun

theorem stops_cons {c : Char} (h : digit? c = none ∧ c ≠ '.' ∧ c ≠ 'e' ∧ c ≠ 'E') (rest : List Char) :
    Stops (c :: rest) := by
  intro d hd
  cases hd
  exact h

section Number

variable {c : Char} {ds rest : List Char} {n : Nat}

theorem digit?_of_isDigit (h : c.isDigit = true) : digit? c = some (c.toNat - 48) := by
  obtain ⟨hlow, hhigh⟩ := Bool.and_eq_true_iff.mp h
  exact if_pos ⟨of_decide_eq_true hlow, of_decide_eq_true hhigh⟩

theorem digits_append (hds : ∀ c ∈ ds, c.isDigit = true) (hrest : ∀ c ∈ rest.head?, digit? c = none) :
    digits (ds ++ rest) = (ds.map (·.toNat - 48), rest) := by
  induction ds with
  | nil =>
    cases rest with
    | nil => rfl
    | cons c rest => simp only [List.nil_append, digits, hrest c rfl, List.map_nil]
  | cons c ds ih =>
    obtain ⟨hc, hds⟩ := List.forall_mem_cons.mp hds
    simp only [List.cons_append, digits, digit?_of_isDigit hc, ih hds, List.map_cons]

theorem isDigit_of_mem (h : c ∈ Decimal.digitChars n) : c.isDigit = true :=
  Nat.isDigit_of_mem_toDigits (by decide) (by decide) h

theorem exists_digit (n : Nat) : ∃ c cs, Decimal.digitChars n = c :: cs ∧ c.isDigit = true := by
  obtain ⟨c, cs, hcs⟩ := List.exists_cons_of_ne_nil (Nat.toDigits_ne_nil (n := n) (b := 10))
  have hmem : c ∈ Decimal.digitChars n := List.mem_of_mem_head? (congrArg List.head? hcs)
  exact ⟨c, cs, hcs, isDigit_of_mem hmem⟩

/-- The digits of a number other than 0 do not start with a 0. -/
theorem digitChars_eq_cons (h : 0 < n) : ∃ c cs, Decimal.digitChars n = c :: cs ∧ c.toNat - 48 ≠ 0 := by
  induction n using Nat.strongRecOn with
  | ind n ih =>
    unfold Decimal.digitChars
    by_cases hn : n < 10
    · refine ⟨n.digitChar, [], Nat.toDigits_of_lt_base hn, ?_⟩
      have hdigit : ∀ d < 10, 0 < d → (Nat.digitChar d).toNat - 48 ≠ 0 := by decide
      exact hdigit n hn h
    · obtain ⟨c, cs, hcs, hc⟩ := ih (n / 10) (by omega) (by omega)
      refine ⟨c, cs ++ [(n % 10).digitChar], ?_, hc⟩
      rw [Nat.toDigits_of_base_le (by decide) (Nat.le_of_not_lt hn)]
      exact congrArg (· ++ [(n % 10).digitChar]) hcs

theorem whole?_digitChars (n : Nat) (hrest : ∀ c ∈ rest.head?, digit? c = none) :
    whole? (Decimal.digitChars n ++ rest) = some ((Decimal.digitChars n).map (·.toNat - 48), rest) := by
  rw [whole?, digits_append (fun c => isDigit_of_mem) hrest]
  cases n with
  | zero => rfl
  | succ n =>
    obtain ⟨c, cs, hcs, hc⟩ := digitChars_eq_cons (Nat.succ_pos n)
    rw [hcs]
    cases cs with
    | nil => rfl
    | cons d cs =>
      generalize hk : c.toNat - 48 = k at hc
      obtain ⟨k, rfl⟩ := Nat.exists_eq_succ_of_ne_zero hc
      simp only [List.map_cons, hk]

theorem numeral?_digitChars (negative : Bool) (n : Nat) (h : Stops rest) :
    numeral? negative (Decimal.digitChars n ++ rest) =
      some (⟨negative, (Decimal.digitChars n).map (·.toNat - 48), [], none⟩, rest) := by
  have hfraction : fraction? rest = some ([], rest) := by
    unfold fraction?
    split
    next => exact absurd rfl (h _ rfl).2.1
    next => rfl
  have hexponent : exponent? rest = some (none, rest) := by
    unfold exponent?
    split
    next c rest =>
      obtain ⟨-, -, he, hE⟩ := h c rfl
      rw [if_neg (not_or.mpr ⟨he, hE⟩)]
    next => rfl
  rw [numeral?, whole?_digitChars n fun c hc => (h c hc).1]
  simp only [Option.bind_eq_bind, Option.bind_some, hfraction, hexponent]
  rfl

theorem whole?_numeral (negative : Bool) (n : Nat) :
    (⟨negative, (Decimal.digitChars n).map (·.toNat - 48), [], none⟩ : Numeral).whole? = some n := by
  have hvalue : (Decimal.digitChars n).foldl (fun v c => 10 * v + (c.toNat - 48)) 0 = n :=
    Nat.ofDigitChars_eq_foldl.symm.trans Nat.ofDigitChars_ten_toDigits
  unfold Numeral.whole?
  rw [List.foldl_map, hvalue]
  rfl

theorem numberDraft_nat (hn : n < Bounds.word64) (h : Stops rest) :
    numberDraft false (Decimal.digitChars n ++ rest) = (.int n, some rest) := by
  rw [numberDraft, numeral?_digitChars false n h]
  simp only [Numeral.value?, Numeral.integer?, whole?_numeral, hn, if_true, Bool.false_eq_true, if_false]

theorem numberDraft_neg (hpos : n ≠ 0) (hn : Bounds.isInt64 (-n) = true) (h : Stops rest) :
    numberDraft true (Decimal.digitChars n ++ rest) = (.int (-n), some rest) := by
  rw [numberDraft, numeral?_digitChars true n h]
  simp only [Numeral.value?, Numeral.integer?, whole?_numeral, hn, hpos, ne_eq, not_false_eq_true, decide_true,
    Bool.and_self, if_true]

end Number

section String

variable {fuel : Nat} {rest : List Char}

theorem hexDigit?_hexChar : ∀ n < 16, hexDigit? (hexChar n) = some n := by decide

/-- A character is read back however it is escaped. -/
theorem chars?_escapeChar (fuel : Nat) (c : Char) (rest : List Char) :
    chars? (fuel + 1) (escapeChar c ++ rest) =
      (chars? fuel rest).map fun (cs, after) => (cs.map (c :: ·), after) := by
  unfold escapeChar
  -- Seven characters have an escape of their own.
  iterate 7
    split
    next h => subst h; rfl
  split
  next h =>
    have hunit : unit? ('0' :: '0' :: hexChar (c.toNat / 16) :: hexChar (c.toNat % 16) :: rest) =
        some (c.toNat, rest) := by
      have hhigh := hexDigit?_hexChar (c.toNat / 16) (by omega)
      have hlow := hexDigit?_hexChar (c.toNat % 16) (by omega)
      have hzero : hexDigit? '0' = some 0 := rfl
      have hvalue : ((0 * 16 + 0) * 16 + c.toNat / 16) * 16 + c.toNat % 16 = c.toNat := by omega
      simp only [unit?, hzero, hhigh, hlow, Option.bind_eq_bind, Option.bind_some, hvalue]
      rfl
    simp only [List.cons_append, List.nil_append, chars?, hunit]
    rw [if_pos (.inl (by omega)), Char.ofNat_toNat]
  next hquote hbackslash _ _ _ _ _ hcontrol =>
    rw [List.singleton_append, chars?, if_neg hcontrol]
    · exact hquote
    · exact hbackslash

theorem chars?_flatMap (cs : List Char) (h : cs.length < fuel) :
    chars? fuel (cs.flatMap escapeChar ++ '"' :: rest) = some (some cs, rest) := by
  induction cs generalizing fuel with
  | nil =>
    obtain ⟨fuel, rfl⟩ := Nat.exists_eq_succ_of_ne_zero (Nat.ne_of_gt h)
    rfl
  | cons c cs ih =>
    obtain ⟨fuel, rfl⟩ := Nat.exists_eq_succ_of_ne_zero (Nat.ne_of_gt (Nat.zero_lt_of_lt h))
    rw [List.flatMap_cons, List.append_assoc, chars?_escapeChar, ih (Nat.lt_of_succ_lt_succ h)]
    rfl

theorem text?_flatMap (cs rest : List Char) :
    text? (cs.flatMap escapeChar ++ '"' :: rest) = some (some (.ofList cs), rest) := by
  have hescape (c : Char) : 1 ≤ (escapeChar c).length := by
    unfold escapeChar
    repeat' split
    all_goals exact Nat.succ_pos _
  have hlength : cs.length ≤ (cs.flatMap escapeChar).length := by
    induction cs with
    | nil => exact Nat.le_refl _
    | cons c cs ih =>
      have hc := hescape c
      rw [List.length_cons, List.flatMap_cons, List.length_append]
      omega
  rw [text?, chars?_flatMap cs]
  · rfl
  · rw [List.length_append]
    omega

end String

section Value

variable {j : Json} {c : Char} {cs rest : List Char} {fuel : Nat} {items : List Json}
  {members : List (String × Json)}

theorem skipSpace_cons (h : isSpace c = false) (cs : List Char) : skipSpace (c :: cs) = c :: cs := by
  rw [skipSpace, List.dropWhile_cons, h]
  rfl

theorem isSpace_of_isDigit (h : c.isDigit = true) : isSpace c = false := by
  refine Bool.eq_false_iff.mpr fun hspace => ?_
  simp only [isSpace, Bool.or_eq_true, beq_iff_eq] at hspace
  rcases hspace with ((rfl | rfl) | rfl) | rfl <;> cases h

theorem value_digit (h : c.isDigit = true) : value (fuel + 1) (c :: cs) = numberDraft false (c :: cs) := by
  have hsome : (digit? c).isSome = true := by rw [digit?_of_isDigit h]; rfl
  rw [value, skipSpace_cons (isSpace_of_isDigit h)]
  split
  case h_9 d rest _ _ _ _ _ _ _ hcs =>
    cases hcs
    exact if_pos hsome
  all_goals
    next hcs =>
    cases hcs
    try cases h

/-- A document starts with a character that neither is blank nor ends a list of items. -/
theorem chars_eq_cons (h : j.Exact) : ∃ c cs, j.chars = c :: cs ∧ isSpace c = false ∧ c ≠ ']' := by
  cases h with
  | null => exact ⟨_, _, rfl, by decide, by decide⟩
  | bool b => cases b <;> exact ⟨_, _, rfl, by decide, by decide⟩
  | @int n h =>
    cases n with
    | ofNat n =>
      obtain ⟨c, cs, hcs, hc⟩ := exists_digit n
      refine ⟨c, cs, hcs, isSpace_of_isDigit hc, ?_⟩
      rintro rfl
      cases hc
    | negSucc n => exact ⟨_, _, rfl, by decide, by decide⟩
  | string s => exact ⟨_, _, rfl, by decide, by decide⟩
  | array h => exact ⟨_, _, rfl, by decide, by decide⟩
  | object h => exact ⟨_, _, rfl, by decide, by decide⟩

/-- The document is read up to its own end, given one step for each of its characters. -/
def ReadsUp (j : Json) : Prop := ∀ fuel rest, j.chars.length ≤ fuel → Stops rest →
  value fuel (j.chars ++ rest) = (.ofJson j, some rest)

theorem succ_of_le (h : (c :: cs).length ≤ fuel) : ∃ left, fuel = left + 1 ∧ cs.length ≤ left := by
  obtain ⟨left, rfl⟩ := Nat.exists_eq_succ_of_ne_zero (Nat.ne_of_gt (Nat.zero_lt_of_lt h))
  exact ⟨left, rfl, Nat.le_of_succ_le_succ h⟩

theorem readsUp_int {n : Int} (h : Bounds.leastInt64 ≤ n ∧ n < Bounds.word64) : ReadsUp (.int n) := by
  intro fuel rest hfuel hrest
  cases n with
  | ofNat n =>
    obtain ⟨c, cs, hcs, hc⟩ := exists_digit n
    have hchars : chars (.int (.ofNat n)) = c :: cs := hcs
    rw [hchars] at hfuel ⊢
    obtain ⟨fuel, rfl, -⟩ := succ_of_le hfuel
    rw [List.cons_append, value_digit hc, ← List.cons_append, ← hcs,
      numberDraft_nat (Int.ofNat_lt.mp h.2) hrest]
    rfl
  | negSucc n =>
    have hword : Bounds.isInt64 (-(n + 1 : Nat)) = true := by
      have hgreatest : (-(n + 1 : Nat) : Int) ≤ 9223372036854775807 := by omega
      exact Bool.and_eq_true_iff.mpr ⟨decide_eq_true h.1, decide_eq_true hgreatest⟩
    obtain ⟨fuel, rfl, -⟩ := succ_of_le hfuel
    have hchars : chars (.int (.negSucc n)) = '-' :: Decimal.digitChars (n + 1) := rfl
    rw [hchars, List.cons_append, value, skipSpace_cons (by decide)]
    exact numberDraft_neg (Nat.succ_ne_zero n) hword hrest

theorem quote_append (s : String) (rest : List Char) :
    quote s ++ rest = '"' :: (s.toList.flatMap escapeChar ++ '"' :: rest) := by
  rw [quote, List.cons_append, List.append_assoc, List.singleton_append]

theorem readsUp_string (s : String) : ReadsUp (.string s) := by
  intro fuel rest hfuel _
  obtain ⟨fuel, rfl, -⟩ := succ_of_le hfuel
  rw [chars, quote_append, value, skipSpace_cons (by decide)]
  simp only [text?_flatMap, String.ofList_toList]
  rfl

theorem items_last {d : Draft} (h : value fuel cs = (d, some (']' :: rest))) :
    Reader.items (fuel + 1) cs = ([d], some rest) := by
  rw [Reader.items, h]
  rfl

/-- After a comma there must be an item. -/
theorem items_more {d : Draft} (h : value fuel cs = (d, some (',' :: c :: rest))) (hspace : isSpace c = false)
    (hc : c ≠ ']') {found : List Draft} {after : Option (List Char)}
    (hrest : Reader.items fuel (c :: rest) = (found, after)) :
    Reader.items (fuel + 1) cs = (d :: found, after) := by
  rw [Reader.items, h]
  simp only [skipSpace_cons (by decide : isSpace ',' = false), skipSpace_cons hspace]
  split
  next heq => exact absurd (List.cons.inj heq).1 hc
  next => rw [hrest]

theorem itemChars_last (j : Json) (rest : List Char) :
    itemChars true [j] ++ rest = j.chars ++ ']' :: rest := by
  simp [itemChars]

theorem itemChars_more (j k : Json) (items : List Json) (rest : List Char) :
    itemChars true (j :: k :: items) ++ rest = j.chars ++ ',' :: (itemChars true (k :: items) ++ rest) := by
  simp [itemChars]

theorem itemChars_opens (h : j.Exact) (items : List Json) (rest : List Char) :
    ∃ c cs, itemChars true (j :: items) ++ rest = c :: cs ∧ isSpace c = false ∧ c ≠ ']' := by
  obtain ⟨c, cs, hcs, hc⟩ := chars_eq_cons h
  exact ⟨c, cs ++ (itemChars false items ++ rest), by simp [itemChars, hcs], hc⟩

/-- Items are read one after another, the first without a comma before it. -/
theorem items_itemChars (hread : ∀ k ∈ j :: items, k.Exact ∧ ReadsUp k)
    (hfuel : (itemChars true (j :: items)).length ≤ fuel) :
    Reader.items fuel (itemChars true (j :: items) ++ rest) = (Draft.ofItems (j :: items), some rest) := by
  induction items generalizing j fuel with
  | nil =>
    obtain ⟨⟨-, hj⟩, -⟩ := List.forall_mem_cons.mp hread
    have hlength := congrArg List.length (itemChars_last j [])
    simp only [List.append_nil, List.length_append, List.length_singleton] at hlength
    obtain ⟨fuel, rfl⟩ := Nat.exists_eq_succ_of_ne_zero (by omega : fuel ≠ 0)
    rw [itemChars_last]
    exact items_last (hj fuel _ (by omega) (stops_cons (by decide) rest))
  | cons k items ih =>
    obtain ⟨⟨-, hj⟩, hitems⟩ := List.forall_mem_cons.mp hread
    have hlength := congrArg List.length (itemChars_more j k items [])
    simp only [List.append_nil, List.length_append, List.length_cons] at hlength
    obtain ⟨fuel, rfl⟩ := Nat.exists_eq_succ_of_ne_zero (by omega : fuel ≠ 0)
    have hfound := hj fuel _ (by omega) (stops_cons (c := ',') (by decide) (itemChars true (k :: items) ++ rest))
    have hmore : Reader.items fuel (itemChars true (k :: items) ++ rest) =
        (Draft.ofItems (k :: items), some rest) := ih hitems (by omega)
    obtain ⟨c, cs, hnext, hspace, hbracket⟩ := itemChars_opens (hitems k List.mem_cons_self).1 items rest
    rw [itemChars_more]
    rw [hnext] at hfound hmore ⊢
    exact items_more hfound hspace hbracket hmore

theorem members_last {name : String} {d : Draft} (h : value fuel cs = (d, some ('\x7d' :: rest))) :
    Reader.members (fuel + 1) (quote name ++ ':' :: cs) = ([(some name, d)], some rest) := by
  rw [quote_append, Reader.members, skipSpace_cons (by decide)]
  simp only [text?_flatMap, skipSpace_cons (by decide : isSpace ':' = false), h, String.ofList_toList,
    skipSpace_cons (by decide : isSpace '\x7d' = false)]

theorem members_more {name : String} {d : Draft} (h : value fuel cs = (d, some (',' :: rest)))
    {found : List (Option String × Draft)} {after : Option (List Char)}
    (hrest : Reader.members fuel rest = (found, after)) :
    Reader.members (fuel + 1) (quote name ++ ':' :: cs) = ((some name, d) :: found, after) := by
  rw [quote_append, Reader.members, skipSpace_cons (by decide)]
  simp only [text?_flatMap, skipSpace_cons (by decide : isSpace ':' = false), h, String.ofList_toList,
    skipSpace_cons (by decide : isSpace ',' = false), hrest]

theorem memberChars_last (name : String) (j : Json) (rest : List Char) :
    memberChars true [(name, j)] ++ rest = quote name ++ ':' :: (j.chars ++ '\x7d' :: rest) := by
  simp [memberChars, pairChars]

theorem memberChars_more (name : String) (j : Json) (m : String × Json) (members : List (String × Json))
    (rest : List Char) : memberChars true ((name, j) :: m :: members) ++ rest =
      quote name ++ ':' :: (j.chars ++ ',' :: (memberChars true (m :: members) ++ rest)) := by
  simp [memberChars, pairChars]

theorem memberChars_opens (m : String × Json) (members : List (String × Json)) (rest : List Char) :
    ∃ cs, memberChars true (m :: members) ++ rest = '"' :: cs := by
  obtain ⟨name, j⟩ := m
  simp [memberChars, pairChars, quote]

theorem members_memberChars {m : String × Json} (hread : ∀ n ∈ m :: members, ReadsUp n.2)
    (hfuel : (memberChars true (m :: members)).length ≤ fuel) :
    Reader.members fuel (memberChars true (m :: members) ++ rest) =
      (Draft.ofMembers (m :: members), some rest) := by
  induction members generalizing m fuel with
  | nil =>
    obtain ⟨name, j⟩ := m
    have hj : ReadsUp j := hread (name, j) List.mem_cons_self
    have hlength := congrArg List.length (memberChars_last name j [])
    simp only [List.append_nil, List.length_append, List.length_cons] at hlength
    obtain ⟨fuel, rfl⟩ := Nat.exists_eq_succ_of_ne_zero (by omega : fuel ≠ 0)
    rw [memberChars_last]
    exact members_last (hj fuel _ (by omega) (stops_cons (by decide) rest))
  | cons m' members ih =>
    obtain ⟨name, j⟩ := m
    have hj : ReadsUp j := hread (name, j) List.mem_cons_self
    have hlength := congrArg List.length (memberChars_more name j m' members [])
    simp only [List.append_nil, List.length_append, List.length_cons] at hlength
    obtain ⟨fuel, rfl⟩ := Nat.exists_eq_succ_of_ne_zero (by omega : fuel ≠ 0)
    have hmore : Reader.members fuel (memberChars true (m' :: members) ++ rest) =
        (Draft.ofMembers (m' :: members), some rest) := ih (List.forall_mem_cons.mp hread).2 (by omega)
    rw [memberChars_more]
    exact members_more (hj fuel _ (by omega) (stops_cons (by decide) _)) hmore

theorem value_array (hspace : isSpace c = false) (hc : c ≠ ']') {found : List Draft}
    (h : Reader.items fuel (c :: cs) = (found, some rest)) :
    value (fuel + 1) ('[' :: c :: cs) = (.array found true, some rest) := by
  rw [value, skipSpace_cons (by decide)]
  simp only [skipSpace_cons hspace]
  split
  next heq => exact absurd (List.cons.inj heq).1 hc
  next => rw [h]; rfl

theorem value_object {found : List (Option String × Draft)}
    (h : Reader.members fuel ('"' :: cs) = (found, some rest)) :
    value (fuel + 1) ('\x7b' :: '"' :: cs) = (.object found true, some rest) := by
  rw [value, skipSpace_cons (by decide)]
  simp only [skipSpace_cons (by decide : isSpace '"' = false)]
  split
  next heq => cases heq
  next => rw [h]; rfl

theorem readsUp (h : j.Exact) : ReadsUp j := by
  induction h with
  | null =>
    intro fuel rest hfuel _
    obtain ⟨fuel, rfl, -⟩ := succ_of_le hfuel
    rfl
  | bool b =>
    intro fuel rest hfuel _
    cases b <;> obtain ⟨fuel, rfl, -⟩ := succ_of_le hfuel <;> rfl
  | int h => exact readsUp_int h
  | string s => exact readsUp_string s
  | @array items h ih =>
    intro fuel rest hfuel _
    rw [chars] at hfuel ⊢
    obtain ⟨fuel, rfl, hleft⟩ := succ_of_le hfuel
    cases items with
    | nil => rfl
    | cons j items =>
      have hread : Reader.items fuel (itemChars true (j :: items) ++ rest) =
          (Draft.ofItems (j :: items), some rest) := items_itemChars (fun k hk => ⟨h k hk, ih k hk⟩) hleft
      obtain ⟨c, cs, hnext, hspace, hbracket⟩ := itemChars_opens (h j List.mem_cons_self) items rest
      rw [List.cons_append, hnext]
      rw [hnext] at hread
      exact value_array hspace hbracket hread
  | @object members h ih =>
    intro fuel rest hfuel _
    rw [chars] at hfuel ⊢
    obtain ⟨fuel, rfl, hleft⟩ := succ_of_le hfuel
    cases members with
    | nil => rfl
    | cons m members =>
      have hread : Reader.members fuel (memberChars true (m :: members) ++ rest) =
          (Draft.ofMembers (m :: members), some rest) := members_memberChars ih hleft
      obtain ⟨cs, hnext⟩ := memberChars_opens m members rest
      rw [List.cons_append, hnext]
      rw [hnext] at hread
      exact value_object hread

end Value

end Reader

namespace Exact

variable {j : Json}

/-- A document is read back from its text. -/
theorem ofText_chars (h : j.Exact) : Draft.ofText j.chars = (.ofJson j, true) := by
  have hread := Reader.readsUp h (2 * j.chars.length + 2) [] (by omega) Reader.stops_nil
  rw [List.append_nil] at hread
  rw [Draft.ofText, hread]
  rfl

theorem ofText_print {α : Type} (c : Codec α) (h : j.Exact) : c.ofText j.print = c.ofJson j := by
  rw [Codec.ofText, print, String.toList_ofList, h.ofText_chars]
  simp only [Codec.ofJson]
  cases c.decode (.ofJson j) <;> rfl

end Exact

section Control

variable {j : Json}

/-- None of the characters is a control character. -/
def Plain (cs : List Char) : Prop := ∀ c ∈ cs, 0x20 ≤ c.toNat

theorem plain_of_all {cs : List Char} (h : cs.all (fun c => decide (0x20 ≤ c.toNat)) = true) : Plain cs :=
  fun c hc => of_decide_eq_true (List.all_eq_true.mp h c hc)

theorem plain_append {cs cs' : List Char} (h : Plain cs) (h' : Plain cs') : Plain (cs ++ cs') :=
  List.forall_mem_append.mpr ⟨h, h'⟩

theorem plain_digitChars (n : Nat) : Plain (Decimal.digitChars n) := by
  intro c hc
  have hdigit := Reader.isDigit_of_mem hc
  obtain ⟨hlow, -⟩ := Bool.and_eq_true_iff.mp hdigit
  have hlow : 48 ≤ c.toNat := of_decide_eq_true hlow
  omega

theorem plain_escapeChar (c : Char) : Plain (escapeChar c) := by
  have hhex : ∀ n < 16, 0x20 ≤ (hexChar n).toNat := by decide
  unfold escapeChar
  iterate 7
    split
    next => exact plain_of_all rfl
  split
  next h =>
    have hhigh := hhex (c.toNat / 16) (by omega)
    have hlow := hhex (c.toNat % 16) (by omega)
    have hlead : Plain ['\\', 'u', '0', '0'] := plain_of_all rfl
    exact plain_append hlead (List.forall_mem_cons.mpr ⟨hhigh, List.forall_mem_singleton.mpr hlow⟩)
  next h => exact List.forall_mem_singleton.mpr (Nat.le_of_not_lt h)

theorem plain_cons {c : Char} {cs : List Char} (hc : 0x20 ≤ c.toNat) (h : Plain cs) : Plain (c :: cs) :=
  List.forall_mem_cons.mpr ⟨hc, h⟩

theorem plain_quote (s : String) : Plain (quote s) := by
  refine plain_cons (by decide) (plain_append (fun c hc => ?_) (plain_cons (by decide) nofun))
  obtain ⟨d, -, hd⟩ := List.mem_flatMap.mp hc
  exact plain_escapeChar d c hd

theorem plain_itemChars {items : List Json} (h : ∀ j ∈ items, Plain j.chars) (isFirst : Bool) :
    Plain (itemChars isFirst items) := by
  induction items generalizing isFirst with
  | nil => exact plain_cons (by decide) nofun
  | cons j items ih =>
    obtain ⟨hj, hitems⟩ := List.forall_mem_cons.mp h
    refine plain_append (plain_append ?_ hj) (ih hitems false)
    cases isFirst
    · exact plain_cons (by decide) nofun
    · exact nofun

theorem plain_memberChars {members : List (String × Json)} (h : ∀ m ∈ members, Plain m.2.chars)
    (isFirst : Bool) : Plain (memberChars isFirst members) := by
  induction members generalizing isFirst with
  | nil => exact plain_cons (by decide) nofun
  | cons m members ih =>
    obtain ⟨name, j⟩ := m
    obtain ⟨hj, hmembers⟩ := List.forall_mem_cons.mp h
    have hpair : Plain (pairChars (name, j)) := plain_append (plain_quote name) (plain_cons (by decide) hj)
    refine plain_append (plain_append ?_ hpair) (ih hmembers false)
    cases isFirst
    · exact plain_cons (by decide) nofun
    · exact nofun

theorem Exact.plain (h : j.Exact) : Plain j.chars := by
  induction h with
  | null => exact plain_of_all rfl
  | bool b => cases b <;> exact plain_of_all rfl
  | @int n h =>
    cases n with
    | ofNat n => exact plain_digitChars n
    | negSucc n => exact plain_cons (by decide) (plain_digitChars (n + 1))
  | string s => exact plain_quote s
  | array h ih => exact plain_cons (by decide) (plain_itemChars ih true)
  | object h ih => exact plain_cons (by decide) (plain_memberChars ih true)

end Control

end Playfield.Json
