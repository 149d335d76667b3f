import ChpProxy.Lib.Net.Literal

/-! Addresses as they are written, and that they are read back. -/
namespace Net

/-! IPv4. -/

namespace Ipv4Addr

def toList (ip : Ipv4Addr) : List Char :=
  Nat.toDigits 10 ip.a.toNat ++ '.' :: (Nat.toDigits 10 ip.b.toNat ++
    '.' :: (Nat.toDigits 10 ip.c.toNat ++ '.' :: Nat.toDigits 10 ip.d.toNat))

end Ipv4Addr

theorem readOctet_toDigits (n : UInt8) {rest : List Char} (hrest : NoDigit 10 rest) :
    readOctet (Nat.toDigits 10 n.toNat ++ rest) = some (n, rest) := by
  have hall : ∀ n : Fin 256, (Nat.toDigits 10 n).length ≤ 3 ∧
      ((Nat.toDigits 10 n).head? = some '0' → (Nat.toDigits 10 n).length = 1) := by
    decide +kernel
  obtain ⟨hlen, hzero⟩ := hall ⟨n.toNat, n.toNat_lt⟩
  have hnumber : readNumber 10 255 (some 3) false (Nat.toDigits 10 n.toNat ++ rest) =
      some (n.toNat, rest) := by
    apply readNumber_toDigits Radix.writes_ten (by decide) (Nat.le_of_lt_succ n.toNat_lt) ?_
      (.inr hzero) hrest
    intro m hm
    rw [← Option.some.inj hm]
    exact hlen
  rw [readOctet, mapTo_eq hnumber, UInt8.ofNat_toNat]

theorem noDigit_cons {radix : ℕ} {c : Char} (h : isDigit radix c = false) (rest : List Char) :
    NoDigit radix (c :: rest) := by
  intro d hd
  rwa [← Option.some.inj hd]

theorem readSeparator_cons {α : Type} {inner : Reader α} (separator : Char) {index : ℕ}
    (hindex : 0 < index) (rest : List Char) :
    readSeparator separator index inner (separator :: rest) = inner rest := by
  rw [readSeparator, if_pos hindex, andThen_eq (readGivenChar_cons separator rest)]

theorem readIpv4Addr_toList (ip : Ipv4Addr) : readIpv4Addr ip.toList = some (ip, []) := by
  have hdot : ∀ rest, NoDigit 10 ('.' :: rest) := noDigit_cons (by decide)
  have hlast : readOctet (Nat.toDigits 10 ip.d.toNat) = some (ip.d, []) := by
    have h := readOctet_toDigits ip.d (noDigit_nil 10)
    rwa [List.append_nil] at h
  have hfirst : readSeparator '.' 0 readOctet ip.toList = _ := readOctet_toDigits ip.a (hdot _)
  rw [readIpv4Addr, andThen_eq hfirst]
  rw [andThen_eq ((readSeparator_cons '.' (by decide) _).trans (readOctet_toDigits ip.b (hdot _)))]
  rw [andThen_eq ((readSeparator_cons '.' (by decide) _).trans (readOctet_toDigits ip.c (hdot _)))]
  rw [mapTo_eq ((readSeparator_cons '.' (by decide) _).trans hlast)]

/-! IPv6 groups. -/

/-- Groups from the given index on: all but the first have a colon before them. -/
def writeGroups : (index : ℕ) → List UInt16 → List Char
  | _, [] => []
  | index, group :: groups =>
    (if 0 < index then [':'] else []) ++ (Nat.toDigits 16 group.toNat ++
      writeGroups (index + 1) groups)

/-- What may follow a group: neither a digit nor a dot. -/
def EndsGroup (rest : List Char) : Prop := ∀ c ∈ rest.head?, isDigit 16 c = false ∧ c ≠ '.'

theorem readGroup_toDigits (group : UInt16) {rest : List Char} (hrest : EndsGroup rest) :
    readGroup (Nat.toDigits 16 group.toNat ++ rest) = some (group, rest) := by
  have hnumber : readNumber 16 0xffff (some 4) true (Nat.toDigits 16 group.toNat ++ rest) =
      some (group.toNat, rest) := by
    apply readNumber_toDigits Radix.writes_sixteen (by decide)
      (Nat.le_of_lt_succ group.toNat_lt) ?_ (.inl rfl) fun c hc => (hrest c hc).1
    intro m hm
    rw [← Option.some.inj hm, Nat.length_toDigits_le_iff (by decide) (by decide)]
    exact group.toNat_lt
  rw [readGroup, mapTo_eq hnumber, UInt16.ofNat_toNat]

theorem isDigit_ten_of_not {c : Char} (h : isDigit 16 c = false) : isDigit 10 c = false := by
  cases hten : Radix.digit? 10 c with
  | none => rw [isDigit, hten, Option.isSome_none]
  | some d =>
    rw [isDigit, Radix.digit?_mono (by decide) hten] at h
    cases h

theorem head_dropWhile_ne_dot {digits rest : List Char}
    (hdigits : ∀ c ∈ digits, isDigit 16 c = true) (hrest : EndsGroup rest) :
    ∀ c ∈ ((digits ++ rest).dropWhile (isDigit 10)).head?, c ≠ '.' := by
  induction digits with
  | nil =>
    cases rest with
    | nil =>
      intro c hc
      cases hc
    | cons d rest =>
      obtain ⟨hdigit, hdot⟩ := hrest d rfl
      rw [List.nil_append, List.dropWhile_cons, isDigit_ten_of_not hdigit]
      intro c hc
      rwa [← Option.some.inj hc]
  | cons d digits ih =>
    rw [List.cons_append, List.dropWhile_cons]
    split_ifs
    · exact ih fun c hc => hdigits c (List.mem_cons_of_mem _ hc)
    · intro c hc
      rw [← Option.some.inj hc]
      rintro rfl
      exact absurd (hdigits '.' List.mem_cons_self) (by decide)

/-- A group is not taken for the first octet of an IPv4 address. -/
theorem readIpv4Addr_group {digits rest : List Char} (hdigits : ∀ c ∈ digits, isDigit 16 c = true)
    (hrest : EndsGroup rest) : readIpv4Addr (digits ++ rest) = none := by
  rw [readIpv4Addr]
  change andThen readOctet _ (digits ++ rest) = none
  cases hnumber : readNumber 10 255 (some 3) false (digits ++ rest) with
  | none => exact andThen_eq_none (mapTo_eq_none hnumber)
  | some p =>
    have hnodot := head_dropWhile_ne_dot hdigits hrest
    rw [← readNumber_rest hnumber] at hnodot
    have hoctet : readOctet (digits ++ rest) = some (UInt8.ofNat p.1, p.2) := mapTo_eq hnumber
    rw [andThen_eq hoctet]
    exact andThen_eq_none (readSeparator_eq_none (by decide) hnodot)

theorem readSeparator_write {α : Type} (inner : Reader α) (separator : Char) (index : ℕ)
    (s : List Char) :
    readSeparator separator index inner ((if 0 < index then [separator] else []) ++ s) = inner s := by
  split_ifs with hindex
  · exact readSeparator_cons separator hindex s
  · rw [readSeparator, if_neg hindex, List.nil_append]

theorem endsGroup_writeGroups {index : ℕ} (hindex : 0 < index) (groups : List UInt16)
    {rest : List Char} (hrest : EndsGroup rest) : EndsGroup (writeGroups index groups ++ rest) := by
  cases groups with
  | nil => exact hrest
  | cons group groups =>
    rw [writeGroups, if_pos hindex]
    intro c hc
    rw [← Option.some.inj hc]
    exact ⟨by decide, by decide⟩

theorem readGroups_writeGroups {groups : List UInt16} {rest : List Char} (hrest : EndsGroup rest)
    {index left : ℕ} (hleft : groups.length ≤ left)
    (hstop : ∀ index left, readGroups index left rest = (([], false), rest)) :
    readGroups index left (writeGroups index groups ++ rest) = ((groups, false), rest) := by
  induction groups generalizing index left with
  | nil => exact hstop index left
  | cons group groups ih =>
    obtain ⟨left, rfl⟩ := Nat.exists_eq_add_one.mpr (Nat.zero_lt_of_lt hleft)
    have hmore := endsGroup_writeGroups (Nat.succ_pos index) groups hrest
    have hdigits : ∀ c ∈ Nat.toDigits 16 group.toNat, isDigit 16 c = true :=
      fun c => isDigit_of_mem_toDigits Radix.writes_sixteen (by decide)
    have hread : readGroups (index + 1) left (writeGroups (index + 1) groups ++ rest) =
        ((groups, false), rest) := ih (Nat.le_of_succ_le_succ hleft)
    rw [writeGroups, List.append_assoc, List.append_assoc, readGroups, readSeparator_write,
      readSeparator_write, readIpv4Addr_group hdigits hmore, ite_self,
      readGroup_toDigits group hmore]
    dsimp only
    rw [hread]

theorem readGroups_nil (index left : ℕ) : readGroups index left [] = (([], false), []) := by
  cases left with
  | zero => rfl
  | succ left =>
    have hnone : ∀ {α : Type} (inner : Reader α), inner [] = none →
        readSeparator ':' index inner [] = none := by
      intro α inner hinner
      unfold readSeparator
      split_ifs
      · rfl
      · exact hinner
    rw [readGroups, hnone readIpv4Addr rfl, ite_self, hnone readGroup rfl]

theorem readGroups_colons (rest : List Char) (index left : ℕ) :
    readGroups index left (':' :: ':' :: rest) = (([], false), ':' :: ':' :: rest) := by
  cases left with
  | zero => rfl
  | succ left =>
    have hnone : ∀ {α : Type} (inner : Reader α), (∀ rest, inner (':' :: rest) = none) →
        readSeparator ':' index inner (':' :: ':' :: rest) = none := by
      intro α inner hinner
      unfold readSeparator
      split_ifs
      · rw [andThen_eq (readGivenChar_cons ':' _), hinner]
      · exact hinner _
    have hgroup : ∀ rest, readGroup (':' :: rest) = none :=
      fun rest => mapTo_eq_none (readNumber_cons (by decide) rest)
    rw [readGroups, hnone readIpv4Addr (readIpv4Addr_cons (by decide)), ite_self,
      hnone readGroup hgroup]

/-! The longest run of zeroes. -/

structure Span where
  start : ℕ
  len : ℕ

/-- One turn of the loop for each segment, from the given index on. -/
def zeroSpan (index : ℕ) (longest current : Span) : List UInt16 → Span
  | [] => longest
  | segment :: segments =>
    if segment = 0 then
      let current := ⟨if current.len = 0 then index else current.start, current.len + 1⟩
      zeroSpan (index + 1) (if longest.len < current.len then current else longest) current segments
    else zeroSpan (index + 1) longest ⟨0, 0⟩ segments

/-- The span is a run of zeroes in the segments. -/
def Span.InZeroes (span : Span) (segments : List UInt16) : Prop :=
  ∃ before after, segments = before ++ List.replicate span.len 0 ++ after ∧
    before.length = span.start

theorem Span.InZeroes.append {span : Span} {segments : List UInt16} (h : span.InZeroes segments)
    (more : List UInt16) : span.InZeroes (segments ++ more) := by
  obtain ⟨before, after, rfl, hstart⟩ := h
  exact ⟨before, after ++ more, by rw [List.append_assoc], hstart⟩

/-- A run that ends with the segments. -/
def Span.AtEnd (span : Span) (segments : List UInt16) : Prop :=
  span.len = 0 ∨ ∃ before, segments = before ++ List.replicate span.len 0 ∧
    before.length = span.start

theorem zeroSpan_inZeroes {done segments : List UInt16} {longest current : Span}
    (hlongest : longest.InZeroes done) (hcurrent : current.AtEnd done) :
    (zeroSpan done.length longest current segments).InZeroes (done ++ segments) := by
  induction segments generalizing done longest current with
  | nil =>
    rw [List.append_nil]
    exact hlongest
  | cons segment segments ih =>
    have hlen : (done ++ [segment]).length = done.length + 1 := by simp
    rw [List.append_cons, zeroSpan, ← hlen]
    by_cases hsegment : segment = 0
    · subst hsegment
      rw [if_pos rfl]
      have hnext : ∃ before, done ++ [0] = before ++ List.replicate (current.len + 1) 0 ∧
          before.length = if current.len = 0 then done.length else current.start := by
        by_cases hzero : current.len = 0
        · exact ⟨done, by rw [hzero]; rfl, by rw [if_pos hzero]⟩
        · obtain ⟨before, hdone, hstart⟩ := hcurrent.resolve_left hzero
          refine ⟨before, ?_, by rw [if_neg hzero, hstart]⟩
          rw [hdone, List.append_assoc, List.replicate_succ']
      obtain ⟨before, hdone, hstart⟩ := hnext
      apply ih
      · by_cases hlonger : longest.len < current.len + 1
        · rw [if_pos hlonger]
          exact ⟨before, [], by rw [List.append_nil]; exact hdone, hstart⟩
        · rw [if_neg hlonger]
          exact hlongest.append [0]
      · exact .inr ⟨before, hdone, hstart⟩
    · rw [if_neg hsegment]
      exact ih (hlongest.append [segment]) (.inl rfl)

/-! IPv6. -/

def toBeBytes (group : UInt16) : UInt8 × UInt8 :=
  (UInt8.ofNat (group.toNat / 256), UInt8.ofNat (group.toNat % 256))

theorem ofBeBytes_toBeBytes (group : UInt16) :
    ofBeBytes (toBeBytes group).1 (toBeBytes group).2 = group := by
  have hgroup := group.toNat_lt
  have hhigh : (UInt8.ofNat (group.toNat / 256)).toNat = group.toNat / 256 :=
    UInt8.toNat_ofNat_of_lt' (by change _ < 256; omega)
  have hlow : (UInt8.ofNat (group.toNat % 256)).toNat = group.toNat % 256 :=
    UInt8.toNat_ofNat_of_lt' (by change _ < 256; omega)
  rw [ofBeBytes, toBeBytes, hhigh, hlow, Nat.div_add_mod', UInt16.ofNat_toNat]

namespace Ipv6Addr

/-- `::ffff:a.b.c.d`. -/
def toIpv4Mapped (ip : Ipv6Addr) : Option Ipv4Addr :=
  match ip.segments with
  | [s0, s1, s2, s3, s4, s5, high, low] =>
    if s0 = 0 ∧ s1 = 0 ∧ s2 = 0 ∧ s3 = 0 ∧ s4 = 0 ∧ s5 = 0xffff then
      some ⟨(toBeBytes high).1, (toBeBytes high).2, (toBeBytes low).1, (toBeBytes low).2⟩
    else none
  | _ => none

def toList (ip : Ipv6Addr) : List Char :=
  match ip.toIpv4Mapped with
  | some ipv4 => "::ffff:".toList ++ ipv4.toList
  | none =>
    let zeroes := zeroSpan 0 ⟨0, 0⟩ ⟨0, 0⟩ ip.segments
    if 1 < zeroes.len then
      writeGroups 0 (ip.segments.take zeroes.start) ++ ':' :: ':' ::
        writeGroups 0 (ip.segments.drop (zeroes.start + zeroes.len))
    else writeGroups 0 ip.segments

end Ipv6Addr

theorem ofSegments_eq {segments : List UInt16} (h : segments.length = 8) :
    Ipv6Addr.ofSegments segments = some ⟨segments, h⟩ := dif_pos h

theorem endsGroup_nil : EndsGroup [] := by
  intro c hc
  cases hc

theorem endsGroup_colon (rest : List Char) : EndsGroup (':' :: rest) := by
  intro c hc
  rw [← Option.some.inj hc]
  exact ⟨by decide, by decide⟩

theorem readIpv6Addr_full {segments : List UInt16} (h : segments.length = 8) :
    readIpv6Addr (writeGroups 0 segments) = some (⟨segments, h⟩, []) := by
  have hgroups : readGroups 0 8 (writeGroups 0 segments ++ []) = ((segments, false), []) :=
    readGroups_writeGroups endsGroup_nil h.le readGroups_nil
  rw [List.append_nil] at hgroups
  rw [readIpv6Addr, hgroups]
  dsimp only
  rw [if_pos h, ofSegments_eq h]
  rfl

theorem readTail_eq {head tail : List UInt16} {zeroes : ℕ} {s rest : List Char} {embedded : Bool}
    (hgroups : readGroups 0 (8 - (head.length + 1)) s = ((tail, embedded), rest))
    (h : (head ++ List.replicate zeroes 0 ++ tail).length = 8) :
    readTail head s = some (⟨head ++ List.replicate zeroes 0 ++ tail, h⟩, rest) := by
  have hzeroes : 8 - tail.length - head.length = zeroes := by
    simp only [List.length_append, List.length_replicate] at h
    omega
  rw [readTail, hgroups]
  dsimp only
  rw [hzeroes, ofSegments_eq h]
  rfl

theorem readIpv6Addr_compressed {head tail : List UInt16} {zeroes : ℕ} (hzeroes : 1 < zeroes)
    (h : (head ++ List.replicate zeroes 0 ++ tail).length = 8) :
    readIpv6Addr (writeGroups 0 head ++ ':' :: ':' :: writeGroups 0 tail) =
      some (⟨head ++ List.replicate zeroes 0 ++ tail, h⟩, []) := by
  have hlen := h
  simp only [List.length_append, List.length_replicate] at hlen
  have hhead : readGroups 0 8 (writeGroups 0 head ++ ':' :: ':' :: writeGroups 0 tail) =
      ((head, false), ':' :: ':' :: writeGroups 0 tail) :=
    readGroups_writeGroups (endsGroup_colon _) (by omega) (readGroups_colons _)
  have htail : readGroups 0 (8 - (head.length + 1)) (writeGroups 0 tail ++ []) =
      ((tail, false), []) :=
    readGroups_writeGroups endsGroup_nil (by omega) readGroups_nil
  rw [List.append_nil] at htail
  have hshort : head.length ≠ 8 := by omega
  rw [readIpv6Addr, hhead]
  dsimp only
  rw [if_neg hshort, if_neg Bool.false_ne_true, andThen_eq (readGivenChar_cons ':' _),
    andThen_eq (readGivenChar_cons ':' _), readTail_eq htail h]

theorem readGroups_group {index left : ℕ} {s rest : List Char} {group : UInt16}
    (hnone : readSeparator ':' index readIpv4Addr s = none)
    (hgroup : readSeparator ':' index readGroup s = some (group, rest)) :
    readGroups index (left + 1) s = ((group :: (readGroups (index + 1) left rest).1.1,
      (readGroups (index + 1) left rest).1.2), (readGroups (index + 1) left rest).2) := by
  rw [readGroups, hnone, ite_self, hgroup]

theorem readGroups_embedded {index left : ℕ} {s rest : List Char} {ip : Ipv4Addr}
    (hleft : 0 < left) (h : readSeparator ':' index readIpv4Addr s = some (ip, rest)) :
    readGroups index (left + 1) s =
      (([ofBeBytes ip.a ip.b, ofBeBytes ip.c ip.d], true), rest) := by
  rw [readGroups, if_pos hleft, h]

theorem readGroups_mapped (ip : Ipv4Addr) : readGroups 0 7 ("ffff:".toList ++ ip.toList) =
    (([0xffff, ofBeBytes ip.a ip.b, ofBeBytes ip.c ip.d], true), []) := by
  have hdigits : ∀ c ∈ "ffff".toList, isDigit 16 c = true := List.all_eq_true.mp (by decide)
  have hends := endsGroup_colon ip.toList
  have hnone : readSeparator ':' 0 readIpv4Addr ("ffff".toList ++ ':' :: ip.toList) = none :=
    readIpv4Addr_group hdigits hends
  have hgroup : readSeparator ':' 0 readGroup ("ffff".toList ++ ':' :: ip.toList) =
      some (0xffff, ':' :: ip.toList) :=
    readGroup_toDigits 0xffff hends
  have hembedded : readSeparator ':' 1 readIpv4Addr (':' :: ip.toList) = some (ip, []) := by
    rw [readSeparator_cons ':' (by decide), readIpv4Addr_toList]
  change readGroups 0 7 ("ffff".toList ++ ':' :: ip.toList) = _
  rw [readGroups_group hnone hgroup, readGroups_embedded (by decide) hembedded]

theorem readIpv6Addr_mapped (ip : Ipv4Addr) (h : [0, 0, 0, 0, 0, 0xffff, ofBeBytes ip.a ip.b,
    ofBeBytes ip.c ip.d].length = 8) :
    readIpv6Addr ("::ffff:".toList ++ ip.toList) =
      some (⟨[0, 0, 0, 0, 0, 0xffff, ofBeBytes ip.a ip.b, ofBeBytes ip.c ip.d], h⟩, []) := by
  have hhead := readGroups_colons ("ffff:".toList ++ ip.toList) 0 8
  have htail : readGroups 0 (8 - (([] : List UInt16).length + 1)) ("ffff:".toList ++ ip.toList) =
      (([0xffff, ofBeBytes ip.a ip.b, ofBeBytes ip.c ip.d], true), []) := readGroups_mapped ip
  change readIpv6Addr (':' :: ':' :: ("ffff:".toList ++ ip.toList)) = _
  rw [readIpv6Addr, hhead]
  dsimp only
  rw [if_neg (by decide), if_neg Bool.false_ne_true, andThen_eq (readGivenChar_cons ':' _),
    andThen_eq (readGivenChar_cons ':' _)]
  have hlength : ([] ++ List.replicate 5 0 ++
      [0xffff, ofBeBytes ip.a ip.b, ofBeBytes ip.c ip.d]).length = 8 := h
  exact readTail_eq htail hlength

theorem Ipv6Addr.toIpv4Mapped_eq_some {ip : Ipv6Addr} {ipv4 : Ipv4Addr}
    (h : ip.toIpv4Mapped = some ipv4) : ip.segments =
      [0, 0, 0, 0, 0, 0xffff, ofBeBytes ipv4.a ipv4.b, ofBeBytes ipv4.c ipv4.d] := by
  unfold toIpv4Mapped at h
  split at h
  · next s0 s1 s2 s3 s4 s5 high low hsegments =>
    split_ifs at h with hmapped
    obtain ⟨rfl, rfl, rfl, rfl, rfl, rfl⟩ := hmapped
    rw [hsegments, ← Option.some.inj h, ofBeBytes_toBeBytes, ofBeBytes_toBeBytes]
  · cases h

theorem readIpv6Addr_toList (ip : Ipv6Addr) : readIpv6Addr ip.toList = some (ip, []) := by
  unfold Ipv6Addr.toList
  cases hmapped : ip.toIpv4Mapped with
  | some ipv4 =>
    obtain ⟨segments, hlength⟩ := ip
    obtain rfl : segments = _ := Ipv6Addr.toIpv4Mapped_eq_some hmapped
    exact readIpv6Addr_mapped ipv4 hlength
  | none =>
    have hstart : Span.InZeroes ⟨0, 0⟩ [] := ⟨[], [], rfl, rfl⟩
    have hspan : (zeroSpan 0 ⟨0, 0⟩ ⟨0, 0⟩ ip.segments).InZeroes ip.segments :=
      zeroSpan_inZeroes hstart (.inl rfl)
    dsimp only
    generalize zeroSpan 0 ⟨0, 0⟩ ⟨0, 0⟩ ip.segments = zeroes at hspan ⊢
    split_ifs with hzeroes
    · obtain ⟨before, after, hsegments, hstart⟩ := hspan
      have htake : ip.segments.take zeroes.start = before := by
        rw [hsegments, ← hstart, List.append_assoc, List.take_left]
      have hdrop : ip.segments.drop (zeroes.start + zeroes.len) = after := by
        have hlen : (before ++ List.replicate zeroes.len (0 : UInt16)).length =
            zeroes.start + zeroes.len := by
          rw [List.length_append, hstart, List.length_replicate]
        rw [hsegments, ← hlen, List.drop_left]
      obtain ⟨segments, hlength⟩ := ip
      obtain rfl : segments = _ := hsegments
      rw [htake, hdrop]
      exact readIpv6Addr_compressed hzeroes hlength
    · exact readIpv6Addr_full ip.length_eq

def SocketAddr.toList : SocketAddr → List Char
  | .v4 ip port => ip.toList ++ ':' :: Nat.toDigits 10 port.toNat
  | .v6 ip port scopeId =>
    let scope := if scopeId = 0 then [] else '%' :: Nat.toDigits 10 scopeId.toNat
    '[' :: ip.toList ++ (scope ++ ']' :: ':' :: Nat.toDigits 10 port.toNat)

theorem readSocketAddr_new (ip : IpAddr) (port : UInt16) :
    readSocketAddr (SocketAddr.new ip port).toList = some (SocketAddr.new ip port, []) := by
  cases ip with
  | v4 ip => exact readSocketAddr_v4 (readIpv4Addr_toList ip) port
  | v6 ip => exact readSocketAddr_v6 (readIpv6Addr_toList ip) port

example : String.ofList (SocketAddr.new (.v6 ⟨[1, 0, 0, 2, 0, 0, 0, 3], rfl⟩) 443).toList =
    "[1:0:0:2::3]:443" := by decide +kernel

end Net
