import ChpProxy.Lib.Net.Address

/-! Readers stop at a character that belongs to no address, so a literal is read the same within a
longer text. -/
namespace Net

variable {α β : Type}

/-- The reader does not read on at `stop`, nor does it read differently because of it. -/
def Local (stop : Char) (read : Reader α) : Prop :=
  ∀ s t, read (s ++ stop :: t) = (read s).map fun p => (p.1, p.2 ++ stop :: t)

namespace Local

variable {stop : Char} {read : Reader α}

theorem mapTo {f : α → β} (h : Local stop read) : Local stop (mapTo f read) := by
  intro s t
  unfold Net.mapTo
  rw [h s t, Option.map_map, Option.map_map]
  rfl

theorem andThen {next : α → Reader β} (h : Local stop read) (hnext : ∀ a, Local stop (next a)) :
    Local stop (andThen read next) := by
  intro s t
  unfold Net.andThen
  rw [h s t]
  cases read s with
  | none => rfl
  | some p => exact hnext p.1 p.2 t

theorem readGivenChar {target : Char} (h : stop ≠ target) : Local stop (readGivenChar target) := by
  intro s t
  cases s with
  | nil => exact if_neg h
  | cons c s =>
    rw [List.cons_append, Net.readGivenChar, Net.readGivenChar]
    split_ifs
    · rfl
    · rfl

theorem readSeparator {separator : Char} (hstop : stop ≠ separator) (index : ℕ)
    (h : Local stop read) : Local stop (readSeparator separator index read) := by
  unfold Net.readSeparator
  split_ifs
  · exact (readGivenChar hstop).andThen fun _ => h
  · exact h

theorem readNumber {radix : ℕ} (hstop : Radix.digit? radix stop = none) (limit : ℕ)
    (maxDigits : Option ℕ) (allowZeroPrefix : Bool) :
    Local stop (readNumber radix limit maxDigits allowZeroPrefix) := by
  intro s t
  have hdigit : isDigit radix stop = false := by rw [isDigit, hstop, Option.isSome_none]
  have hspan : (s ++ stop :: t).takeWhile (isDigit radix) = s.takeWhile (isDigit radix) ∧
      (s ++ stop :: t).dropWhile (isDigit radix) = s.dropWhile (isDigit radix) ++ stop :: t := by
    induction s with
    | nil => simp [hdigit]
    | cons c s ih =>
      cases hc : isDigit radix c with
      | true => simp [hc, ih.1, ih.2]
      | false => simp [hc]
  unfold Net.readNumber
  dsimp only
  rw [hspan.1, hspan.2]
  split_ifs
  · rfl
  · rw [Option.map_map]
    rfl

theorem readIpv4Addr (hdigit : Radix.digit? 10 stop = none) (hdot : stop ≠ '.') :
    Local stop readIpv4Addr := by
  have hoctet : ∀ index, Local stop (Net.readSeparator '.' index readOctet) :=
    fun index => readSeparator hdot index (readNumber hdigit 255 (some 3) false).mapTo
  exact (hoctet 0).andThen fun _ => (hoctet 1).andThen fun _ => (hoctet 2).andThen fun _ =>
    (hoctet 3).mapTo

/-- A character that is not part of an IPv6 address. -/
structure Outside (stop : Char) : Prop where
  digit : Radix.digit? 16 stop = none
  decimal : Radix.digit? 10 stop = none
  colon : stop ≠ ':'
  dot : stop ≠ '.'

theorem readGroups (h : Outside stop) (index left : ℕ) (s t : List Char) : readGroups index left (s ++ stop :: t) =
      ((readGroups index left s).1, (readGroups index left s).2 ++ stop :: t) := by
  have hipv4 : ∀ index, Local stop (Net.readSeparator ':' index Net.readIpv4Addr) :=
    fun index => readSeparator h.colon index (readIpv4Addr h.decimal h.dot)
  have hgroup : ∀ index, Local stop (Net.readSeparator ':' index readGroup) :=
    fun index => readSeparator h.colon index (readNumber h.digit 0xffff (some 4) true).mapTo
  induction left generalizing index s with
  | zero => rfl
  | succ left ih =>
    have hembedded : (if 0 < left then Net.readSeparator ':' index Net.readIpv4Addr (s ++ stop :: t)
        else none) = (if 0 < left then Net.readSeparator ':' index Net.readIpv4Addr s
        else none).map fun p => (p.1, p.2 ++ stop :: t) := by
      split_ifs
      · exact hipv4 index s t
      · rfl
    unfold Net.readGroups
    rw [hembedded, hgroup index s t]
    cases if 0 < left then Net.readSeparator ':' index Net.readIpv4Addr s else none with
    | some p => rfl
    | none =>
      cases Net.readSeparator ':' index readGroup s with
      | none => rfl
      | some p => simp only [Option.map_some, Option.map_none, ih]

theorem readIpv6Addr (h : Outside stop) : Local stop readIpv6Addr := by
  have htail : ∀ head, Local stop (readTail head) := by
    intro head s t
    unfold readTail
    rw [readGroups h]
    dsimp only
    rw [Option.map_map]
    rfl
  intro s t
  unfold Net.readIpv6Addr
  rw [readGroups h]
  dsimp only
  split_ifs
  · rw [Option.map_map]
    rfl
  · rfl
  · exact (readGivenChar h.colon).andThen
      (fun _ => (readGivenChar h.colon).andThen fun _ => htail _) _ t

/-- A text that is read to its end does not have the character. -/
theorem not_mem (h : Local stop read) {s : List Char} {a : α} (hs : read s = some (a, [])) :
    stop ∉ s := by
  intro hmem
  obtain ⟨before, after, rfl⟩ := List.append_of_mem hmem
  rw [h before after] at hs
  obtain ⟨p, -, hp⟩ := Option.map_eq_some_iff.mp hs
  have hrest := congrArg Prod.snd hp
  simp at hrest

theorem append (h : Local stop read) {s : List Char} {a : α} (hs : read s = some (a, []))
    (t : List Char) : read (s ++ stop :: t) = some (a, stop :: t) := by
  rw [h s t, hs]
  rfl

end Local

/-! Literals. -/

theorem parseWith_eq_some_iff {read : Reader α} {text : String} {a : α} :
    parseWith read text = some a ↔ read text.toList = some (a, []) := by
  unfold parseWith
  constructor
  · intro h
    obtain ⟨p, hp, h⟩ := Option.bind_eq_some_iff.mp h
    split_ifs at h with hempty
    obtain rfl := Option.some.inj h
    rw [hp, ← List.isEmpty_iff.mp hempty]
  · intro h
    rw [h]
    rfl

theorem Ipv4Addr.fromStr_eq_some {text : String} {ip : Ipv4Addr} (h : fromStr text = some ip) :
    readIpv4Addr text.toList = some (ip, []) := by
  unfold fromStr at h
  split_ifs at h
  exact parseWith_eq_some_iff.mp h

theorem outside_bracket : Local.Outside ']' := ⟨by decide, by decide, by decide, by decide⟩

/-! Numbers. -/

/-- What follows does not begin with a digit. -/
def NoDigit (radix : ℕ) (rest : List Char) : Prop := ∀ c ∈ rest.head?, isDigit radix c = false

theorem span_digits {radix : ℕ} {digits rest : List Char}
    (hdigits : ∀ c ∈ digits, isDigit radix c = true) (hrest : NoDigit radix rest) :
    (digits ++ rest).takeWhile (isDigit radix) = digits ∧
      (digits ++ rest).dropWhile (isDigit radix) = rest := by
  have hstop : rest.takeWhile (isDigit radix) = [] ∧ rest.dropWhile (isDigit radix) = rest := by
    cases rest with
    | nil => exact ⟨rfl, rfl⟩
    | cons c rest =>
      have hc : isDigit radix c = false := hrest c rfl
      simp [hc]
  rw [List.takeWhile_append_of_pos hdigits, List.dropWhile_append_of_pos hdigits, hstop.1, hstop.2,
    List.append_nil]
  exact ⟨rfl, rfl⟩

theorem isDigit_of_mem_toDigits {radix n : ℕ} (hwrites : Radix.Writes radix) (hradix : 1 < radix)
    {c : Char} (hc : c ∈ Nat.toDigits radix n) : isDigit radix c = true := by
  obtain ⟨d, hd⟩ := Radix.exists_digit_of_valueFrom (Radix.valueFrom_toDigits hwrites hradix n) hc
  rw [isDigit, hd, Option.isSome_some]

theorem readNumber_toDigits {radix limit n : ℕ} {maxDigits : Option ℕ} {allowZeroPrefix : Bool}
    {rest : List Char} (hwrites : Radix.Writes radix) (hradix : 1 < radix) (hn : n ≤ limit)
    (hlen : ∀ m ∈ maxDigits, (Nat.toDigits radix n).length ≤ m)
    (hzero : allowZeroPrefix = true ∨
      ((Nat.toDigits radix n).head? = some '0' → (Nat.toDigits radix n).length = 1))
    (hrest : NoDigit radix rest) :
    readNumber radix limit maxDigits allowZeroPrefix (Nat.toDigits radix n ++ rest) =
      some (n, rest) := by
  obtain ⟨htake, hdrop⟩ :=
    span_digits (fun c => isDigit_of_mem_toDigits hwrites hradix (n := n)) hrest
  have hvalue := Radix.parseFrom_eq (by omega) hn (Radix.valueFrom_toDigits hwrites hradix n)
  unfold readNumber
  dsimp only
  rw [htake, hdrop, hvalue, if_neg]
  · rfl
  · have hne : (Nat.toDigits radix n).isEmpty = false := List.isEmpty_eq_false_iff.mpr Nat.toDigits_ne_nil
    have hfew : maxDigits.any (· < (Nat.toDigits radix n).length) = false := by
      cases maxDigits with
      | none => rfl
      | some m => exact decide_eq_false (Nat.not_lt.mpr (hlen m rfl))
    have hlead : (!allowZeroPrefix && decide ((Nat.toDigits radix n).head? = some '0') &&
        decide (1 < (Nat.toDigits radix n).length)) = false := by
      rcases hzero with hallow | hsingle
      · rw [hallow]
        rfl
      · by_cases hhead : (Nat.toDigits radix n).head? = some '0'
        · simp [hsingle hhead]
        · simp [hhead]
    rw [hne, hfew, hlead]
    decide

/-! Addresses with a port. -/

theorem noDigit_nil (radix : ℕ) : NoDigit radix [] := by
  intro c hc
  cases hc

theorem readPort_toDigits (port : UInt16) :
    readPort (':' :: Nat.toDigits 10 port.toNat) = some (port, []) := by
  have hport : port.toNat ≤ 0xffff := Nat.le_of_lt_succ port.toNat_lt
  have hnumber : readNumber 10 0xffff none true (Nat.toDigits 10 port.toNat ++ []) =
      some (port.toNat, []) :=
    readNumber_toDigits Radix.writes_ten (by decide) hport (by simp) (.inl rfl) (noDigit_nil 10)
  rw [List.append_nil] at hnumber
  rw [readPort, andThen_eq (readGivenChar_cons ':' _), mapTo_eq hnumber, UInt16.ofNat_toNat]

theorem readSocketAddr_v4 {literal : List Char} {ip : Ipv4Addr}
    (h : readIpv4Addr literal = some (ip, [])) (port : UInt16) :
    readSocketAddr (literal ++ ':' :: Nat.toDigits 10 port.toNat) = some (.v4 ip port, []) := by
  have hlocal : Local ':' readIpv4Addr := Local.readIpv4Addr (by decide) (by decide)
  have hip := hlocal.append h (Nat.toDigits 10 port.toNat)
  have hv4 : readSocketAddrV4 (literal ++ ':' :: Nat.toDigits 10 port.toNat) =
      some (.v4 ip port, []) := by
    rw [readSocketAddrV4, andThen_eq hip, mapTo_eq (readPort_toDigits port)]
  rw [readSocketAddr, hv4]
  rfl

theorem readNumber_cons {radix limit : ℕ} {maxDigits : Option ℕ} {allowZeroPrefix : Bool} {c : Char}
    (h : isDigit radix c = false) (rest : List Char) :
    readNumber radix limit maxDigits allowZeroPrefix (c :: rest) = none := by
  unfold readNumber
  simp [h]

theorem readNumber_rest {radix limit n : ℕ} {maxDigits : Option ℕ} {allowZeroPrefix : Bool}
    {s rest : List Char}
    (h : readNumber radix limit maxDigits allowZeroPrefix s = some (n, rest)) :
    rest = s.dropWhile (isDigit radix) := by
  unfold readNumber at h
  dsimp only at h
  split_ifs at h
  obtain ⟨m, -, hm⟩ := Option.map_eq_some_iff.mp h
  exact (congrArg Prod.snd hm).symm

theorem readIpv4Addr_cons {c : Char} (h : isDigit 10 c = false) (rest : List Char) :
    readIpv4Addr (c :: rest) = none := by
  have hfirst : readSeparator '.' 0 readOctet (c :: rest) = none :=
    mapTo_eq_none (readNumber_cons h rest)
  rw [readIpv4Addr, andThen_eq_none hfirst]

theorem readSocketAddrV4_cons {c : Char} (h : isDigit 10 c = false) (rest : List Char) :
    readSocketAddrV4 (c :: rest) = none := by
  rw [readSocketAddrV4, andThen_eq_none (readIpv4Addr_cons h rest)]

theorem readSocketAddr_v6 {literal : List Char} {ip : Ipv6Addr}
    (h : readIpv6Addr literal = some (ip, [])) (port : UInt16) :
    readSocketAddr ('[' :: literal ++ ']' :: ':' :: Nat.toDigits 10 port.toNat) =
      some (.v6 ip port 0, []) := by
  have hip := (Local.readIpv6Addr outside_bracket).append h (':' :: Nat.toDigits 10 port.toNat)
  have hv6 : readSocketAddrV6 ('[' :: literal ++ ']' :: ':' :: Nat.toDigits 10 port.toNat) =
      some (.v6 ip port 0, []) := by
    have hscope : orDefault readScopeId 0 (']' :: ':' :: Nat.toDigits 10 port.toNat) =
        some (0, ']' :: ':' :: Nat.toDigits 10 port.toNat) := by
      rw [orDefault, readScopeId, andThen_eq_none (readGivenChar_cons_ne (by decide) _)]
      rfl
    rw [readSocketAddrV6, List.cons_append, andThen_eq (readGivenChar_cons '[' _), andThen_eq hip,
      andThen_eq hscope, andThen_eq (readGivenChar_cons ']' _), mapTo_eq (readPort_toDigits port)]
  have hv4 : readSocketAddrV4 ('[' :: literal ++ ']' :: ':' :: Nat.toDigits 10 port.toNat) = none :=
    readSocketAddrV4_cons (by decide) _
  rw [readSocketAddr, hv4, hv6]
  rfl

theorem readSocketAddr_colon (rest : List Char) : readSocketAddr (':' :: rest) = none := by
  rw [readSocketAddr, readSocketAddrV4_cons (by decide), readSocketAddrV6,
    andThen_eq_none (readGivenChar_cons_ne (by decide) _)]
  rfl

/-! The shape of IPv6 literals. -/

theorem readSeparator_eq_none {α : Type} {inner : Reader α} {separator : Char} {index : ℕ}
    (hindex : 0 < index) {s : List Char} (h : ∀ c ∈ s.head?, c ≠ separator) :
    readSeparator separator index inner s = none := by
  rw [readSeparator, if_pos hindex]
  cases s with
  | nil => rfl
  | cons c s => exact andThen_eq_none (readGivenChar_cons_ne (h c rfl) s)

theorem readGroups_of_no_colon {index : ℕ} (hindex : 0 < index) {s : List Char} (h : ':' ∉ s)
    (left : ℕ) : readGroups index left s = (([], false), s) := by
  have hhead : ∀ c ∈ s.head?, c ≠ ':' := by
    rintro c hc rfl
    exact h (List.mem_of_head? hc)
  cases left with
  | zero => rfl
  | succ left =>
    rw [readGroups, readSeparator_eq_none hindex hhead, ite_self,
      readSeparator_eq_none hindex hhead]

theorem readGivenChar_of_not_mem {target : Char} {s : List Char} (h : target ∉ s) :
    readGivenChar target s = none := by
  cases s with
  | nil => rfl
  | cons c s => exact readGivenChar_cons_ne (List.ne_of_not_mem_cons h).symm s

theorem readIpv6Addr_of_no_colon {s : List Char} (h : ':' ∉ s) : readIpv6Addr s = none := by
  have hfound : (readGroups 0 8 s).1.1.length < 8 ∧
      ((readGroups 0 8 s).1.2 = true ∨ ':' ∉ (readGroups 0 8 s).2) := by
    rw [readGroups]
    split
    · exact ⟨(by decide : 2 < 8), .inl rfl⟩
    · split
      · next group rest hgroup =>
        have hrest : ':' ∉ rest := by
          obtain ⟨p, hnumber, hp⟩ := Option.map_eq_some_iff.mp hgroup
          obtain rfl : p.2 = rest := congrArg Prod.snd hp
          rw [readNumber_rest hnumber]
          exact fun hmem => h ((List.dropWhile_suffix _).subset hmem)
        rw [readGroups_of_no_colon (by decide) hrest]
        exact ⟨(by decide : 1 < 8), .inr hrest⟩
      · exact ⟨(by decide : 0 < 8), .inr h⟩
  obtain ⟨hlen, hrest⟩ := hfound
  rw [readIpv6Addr, if_neg hlen.ne]
  split_ifs with hembedded
  · rfl
  · exact andThen_eq_none (readGivenChar_of_not_mem (hrest.resolve_left hembedded))

theorem readIpv6Addr_bracket (rest : List Char) : readIpv6Addr ('[' :: rest) = none := by
  have houtside : Local.Outside '[' := ⟨by decide, by decide, by decide, by decide⟩
  exact Local.readIpv6Addr houtside [] rest

end Net
