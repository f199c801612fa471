import Mathlib.Data.List.TakeWhile
import Playfield.Proofs.Platform.Launch

/-! Where a server listens. A binding in the environment has the last word: it is split at its last colon, and
what cannot be read as a port is passed over. Without it the host and the port have variables of their own, and
without those they are as the file has them. -/
namespace Playfield.Settings

/-- The text spells a number of 16 bits: digits, of which there is at least one, perhaps after a plus sign. -/
def Spells (text : String) (n : Nat) : Prop :=
  n < Bounds.word16 ∧ ∃ ds, (text.toList = ds ∨ text.toList = '+' :: ds) ∧ ds ≠ [] ∧
    (∀ c ∈ ds, c.isDigit = true) ∧ Nat.ofDigitChars 10 ds 0 = n

/-- The port is the one that a value spells, or the other one if there is no value or it spells none. -/
structure Spelled (value : Option String) (other port : UInt16) : Prop where
  read : ∀ text n, value = some text → Spells text n → port.toNat = n
  otherwise : (∀ text n, value = some text → ¬Spells text n) → port = other

section Port

variable {ds : List Char} {text : String} {p : UInt16} {n : Nat}

/-- The number of 16 bits that digits without a sign come to. -/
def value? (ds : List Char) : Option UInt16 :=
  if !ds.isEmpty && ds.all (·.isDigit) then
    if Nat.ofDigitChars 10 ds 0 < Bounds.word16 then some (.ofNat (Nat.ofDigitChars 10 ds 0)) else none
  else none

theorem value?_eq_some : value? ds = some p ↔
    ds ≠ [] ∧ (∀ c ∈ ds, c.isDigit = true) ∧ Nat.ofDigitChars 10 ds 0 = p.toNat := by
  have hword : Bounds.word16 = UInt16.size := rfl
  unfold value?
  constructor
  · intro h
    obtain ⟨hds, h⟩ := Option.ite_none_right_eq_some.mp h
    obtain ⟨hlt, h⟩ := Option.ite_none_right_eq_some.mp h
    obtain ⟨hne, hall⟩ := Bool.and_eq_true_iff.mp hds
    refine ⟨by simpa using hne, List.all_eq_true.mp hall, ?_⟩
    rw [← Option.some.inj h, UInt16.toNat_ofNat_of_lt' hlt]
  · rintro ⟨hne, hall, hn⟩
    rw [if_pos (by simpa using ⟨hne, hall⟩), hn, hword, if_pos p.toNat_lt, UInt16.ofNat_toNat]

theorem port?_plus (ds : List Char) : port? ('+' :: ds) = value? ds := rfl

theorem port?_unsigned (h : ∀ rest, ds ≠ '+' :: rest) : port? ds = value? ds := by
  unfold port?
  split
  next rest => exact absurd rfl (h rest)
  next => rfl

theorem port?_eq_some : port? text.toList = some p ↔ Spells text p.toNat := by
  constructor
  · intro h
    refine ⟨p.toNat_lt, ?_⟩
    by_cases hplus : ∃ rest, text.toList = '+' :: rest
    · obtain ⟨ds, hds⟩ := hplus
      rw [hds, port?_plus] at h
      exact ⟨ds, .inr hds, value?_eq_some.mp h⟩
    · rw [port?_unsigned fun rest hrest => hplus ⟨rest, hrest⟩] at h
      exact ⟨text.toList, .inl rfl, value?_eq_some.mp h⟩
  · rintro ⟨-, ds, hds | hds, hvalue⟩
    · -- A sign is no digit, so that digits are read as they are.
      rw [hds, port?_unsigned, value?_eq_some.mpr hvalue]
      rintro rest rfl
      exact absurd (hvalue.2.1 '+' List.mem_cons_self) (by decide)
    · rw [hds, port?_plus, value?_eq_some.mpr hvalue]

theorem port?_of_spells (h : Spells text n) : port? text.toList = some (.ofNat n) := by
  rwa [port?_eq_some, UInt16.toNat_ofNat_of_lt' h.1]

theorem spelled_getD (value : Option String) (other : UInt16) :
    Spelled value other ((value.bind (port? ·.toList)).getD other) where
  read := by
    rintro text n rfl h
    rw [Option.bind_some, port?_of_spells h, Option.getD_some, UInt16.toNat_ofNat_of_lt' h.1]
  otherwise := by
    intro h
    have hnone : value.bind (port? ·.toList) = none := by
      refine Option.bind_eq_none_iff.mpr fun text htext => Option.eq_none_iff_forall_ne_some.mpr ?_
      exact fun p hp => h text p.toNat htext (port?_eq_some.mp hp)
    rw [hnone, Option.getD_none]

/-- The digits of a number spell it. -/
theorem spells_toString (h : n < Bounds.word16) : Spells (toString n) n := by
  refine ⟨h, Nat.toDigits 10 n, .inl ?_, Nat.toDigits_ne_nil, fun c hc => ?_, ?_⟩
  · rw [Nat.toString_eq_ofList_toDigits, String.toList_ofList]
  · exact Nat.isDigit_of_mem_toDigits (by decide) (by decide) hc
  · rw [Nat.ofDigitChars_ten_toDigits]

end Port

section Colon

variable {cs host port : List Char}

theorem takeWhile_eq_self (h : ':' ∉ cs) : cs.reverse.takeWhile (· ≠ ':') = cs.reverse := by
  refine List.takeWhile_eq_self_iff.mpr fun c hc => decide_eq_true ?_
  rintro rfl
  exact h (List.mem_reverse.mp hc)

theorem splitLastColon?_eq_none (h : ':' ∉ cs) : splitLastColon? cs = none := by
  unfold splitLastColon?
  rw [takeWhile_eq_self h, List.reverse_reverse]
  exact if_neg (Nat.lt_irrefl _)

theorem splitLastColon?_append (host : List Char) (h : ':' ∉ port) :
    splitLastColon? (host ++ ':' :: port) = some (host, port) := by
  have hafter : ((host ++ ':' :: port).reverse.takeWhile (· ≠ ':')).reverse = port := by
    rw [List.reverse_append, List.reverse_cons, List.append_assoc, List.takeWhile_append, takeWhile_eq_self h,
      if_pos rfl]
    simp
  have hlength : (host ++ ':' :: port).length - port.length - 1 = host.length := by
    simp only [List.length_append, List.length_cons]
    omega
  unfold splitLastColon?
  simp only [hafter]
  rw [hlength, List.take_left, if_pos]
  simp only [List.length_append, List.length_cons]
  omega

end Colon

variable {s : Settings} {env : String → Option String} {file : SettingsFile}

theorem bind_of_no_colon {address : String} (h : ':' ∉ address.toList) : s.bind address = s := by
  rw [bind, splitLastColon?_eq_none h]

theorem bind_at_last_colon {port : String} (h : ':' ∉ port.toList) (host : String) :
    s.bind (host ++ ":" ++ port) = { s with host, port := (port? port.toList).getD s.port } := by
  have htext : (host ++ ":" ++ port).toList = host.toList ++ ':' :: port.toList := by simp
  rw [bind, htext, splitLastColon?_append _ h]
  simp only [String.ofList_toList]

/-- The environment without its binding. -/
def unbound (env : String → Option String) (name : String) : Option String :=
  if name = "PINHUB_BIND" then none else env name

/-- The binding is applied to what the other variables make of the settings. -/
theorem override_eq_bind (s : Settings) (env : String → Option String) :
    s.override env =
      ((env "PINHUB_BIND").map (s.override (unbound env)).bind).getD (s.override (unbound env)) := by
  have hfilter (t : Settings) (address : String) (filter : Option String) :
      { t.bind address with filter := filter.getD (t.bind address).filter } =
        { t with filter := filter.getD t.filter }.bind address := by
    unfold bind
    split <;> rfl
  cases hbind : env "PINHUB_BIND" with
  | none =>
    simp only [override, hbind]
    rfl
  | some address =>
    simp only [override, hbind]
    exact hfilter ..

theorem fault?_eq_none : s.fault? = none ↔ s.port ≠ 0 ∧ s.platform.streamCapacity ≠ 0 ∧ s.Accepted := by
  constructor
  · intro h
    refine ⟨fun hzero => ?_, capacity_ne_zero h, accepted h⟩
    rw [fault?, if_pos hzero] at h
    cases h
  · rintro ⟨hport, hcapacity, haccepted⟩
    refine Option.eq_none_iff_forall_ne_some.mpr fun e he => ?_
    obtain ⟨i, cause, -, ⟨r, hr, hfails⟩, -⟩ | ⟨-, i, cause, -, ⟨r, hr, hfails⟩, -⟩ :=
      firstFault he hport hcapacity
    · obtain ⟨d, hd⟩ := haccepted.devices r (List.mem_of_getElem? hr)
      rw [hd] at hfails
      cases hfails
    · obtain ⟨rule, hrule⟩ := haccepted.rules r (List.mem_of_getElem? hr)
      rw [hrule] at hfails
      cases hfails

/-- Settings are refused if no port is left, or if the file asks for a stream without capacity or has an entry
that fails its check. -/
theorem load_eq_error (h : ofFile file = .ok s) :
    (∃ e, load file env = .error e) ↔
      (s.override env).port = 0 ∨ s.platform.streamCapacity = 0 ∨ ¬s.Accepted := by
  obtain ⟨host, port, filter, ht⟩ := override_eq s env
  have haccepted : (s.override env).Accepted ↔ s.Accepted := by
    rw [ht]
    exact ⟨fun h => ⟨h.devices, h.rules⟩, fun h => ⟨h.devices, h.rules⟩⟩
  have hplatform : (s.override env).platform = s.platform := by rw [ht]
  have hload : (∃ e, load file env = .error e) ↔ (s.override env).fault? ≠ none := by
    rw [load_of_file h]
    cases (s.override env).fault? with
    | none => simp
    | some e => simp
  rw [hload, ne_eq, fault?_eq_none, hplatform, haccepted]
  tauto

/-- The binding decides where to listen, whatever the other variables say: before its last colon is the host,
and after it the port if it can be read as one. A port without sign and leading zeros is read as it stands, so
that the address is the binding itself. Where there is no binding, or none with a colon, each of the other
variables decides for itself, and what it leaves open is as in the file. -/
theorem listens_where_told (s : Settings) (env : String → Option String) :
    let told := s.override env
    let rest := s.override (unbound env)
    (rest.host = (env "PINHUB_HOST").getD s.host ∧ Spelled (env "PINHUB_PORT") s.port rest.port) ∧
      ((∀ address, env "PINHUB_BIND" = some address → ':' ∉ address.toList) → told = rest) ∧
      (∀ host port, env "PINHUB_BIND" = some (host ++ ":" ++ port) → ':' ∉ port.toList →
        told.host = host ∧ Spelled (some port) rest.port told.port ∧
          ∀ n, n < Bounds.word16 → port = toString n → told.address = host ++ ":" ++ port) ∧
      (∀ file e, ofFile file = .error e → load file env = .error e) ∧
      ∀ file, ofFile file = .ok s →
        ((∃ e, load file env = .error e) ↔
          told.port = 0 ∨ s.platform.streamCapacity = 0 ∨ ¬s.Accepted) ∧
        ∀ t, load file env = .ok t → t = told := by
  intro told rest
  have htold : told = ((env "PINHUB_BIND").map rest.bind).getD rest := override_eq_bind s env
  refine ⟨⟨rfl, spelled_getD ..⟩, fun h => ?_, fun host port hbind hport => ?_, fun file e h => ?_,
    fun file h => ⟨load_eq_error h, fun t ht => ?_⟩⟩
  · cases hbind : env "PINHUB_BIND" with
    | none => rw [htold, hbind, Option.map_none, Option.getD_none]
    | some address => rw [htold, hbind, Option.map_some, Option.getD_some, bind_of_no_colon (h address hbind)]
  · rw [hbind, Option.map_some, Option.getD_some, bind_at_last_colon hport] at htold
    have hspelled : Spelled (some port) rest.port told.port := by
      rw [htold]
      exact spelled_getD (some port) rest.port
    refine ⟨by rw [htold], hspelled, fun n hn hcanonical => ?_⟩
    have hread : port? port.toList = some (.ofNat n) := hcanonical ▸ port?_of_spells (spells_toString hn)
    have hsame : toString (UInt16.ofNat n) = toString n :=
      congrArg toString (UInt16.toNat_ofNat_of_lt' hn)
    rw [htold, address, hread, Option.getD_some, hsame, hcanonical]
  · rw [load, h]
    rfl
  · obtain ⟨s', hs', rfl, -⟩ := load_eq_ok.mp ht
    cases h.symm.trans hs'
    rfl

/-- An environment with all three variables. -/
def boundTo (address : String) : String → Option String
  | "PINHUB_BIND" => some address
  | "PINHUB_HOST" => some "localhost"
  | "PINHUB_PORT" => some "+9"
  | _ => none

/-- The host of a binding may have colons itself. A port of more than 16 bits is passed over, and port 0 is
read but refused. -/
theorem listens_where_told_bound :
    (default.override (boundTo "[::1]:8080")).address = "[::1]:8080" ∧
      (default.override (boundTo "[::1]:65536")).address = "[::1]:9" ∧
      ∃ e, load .missing (boundTo ":0") = .error e := by
  obtain ⟨-, -, hbound, -⟩ := listens_where_told default (boundTo "[::1]:8080")
  obtain ⟨⟨-, hvariable⟩, -, hexcess, -⟩ := listens_where_told default (boundTo "[::1]:65536")
  obtain ⟨-, -, hzero, -, hload⟩ := listens_where_told default (boundTo ":0")
  refine ⟨?_, ?_, ?_⟩
  · obtain ⟨-, -, haddress⟩ := hbound "[::1]" "8080" rfl (by decide)
    exact haddress 8080 (by decide) (by decide)
  · obtain ⟨hhost, hport, -⟩ := hexcess "[::1]" "65536" rfl (by decide)
    have hnine : Spells "+9" 9 := (port?_eq_some (p := 9)).mp (by decide +kernel)
    have hnone (n : Nat) : ¬Spells "65536" n := by
      intro h
      have hpassed : port? "65536".toList = none := by decide +kernel
      cases hpassed.symm.trans (port?_of_spells h)
    have hpassed := hport.otherwise fun text n htext => Option.some.inj htext ▸ hnone n
    have hport : (default.override (boundTo "[::1]:65536")).port = 9 := by
      rw [hpassed]
      exact UInt16.toNat_inj.mp (hvariable.read "+9" 9 rfl hnine)
    rw [address, hhost, hport]
    decide
  · obtain ⟨-, hport, -⟩ := hzero "" "0" rfl (by decide)
    refine (hload .missing rfl).1.mpr (.inl (UInt16.toNat_inj.mp ?_))
    exact hport.read "0" 0 rfl (spells_toString (by decide))

end Playfield.Settings
