/-
  OpenFelt.Network.Invites — private game invitations (`src/game_invite.rs`).

  An invite is read in the form `SB2|address|table|access` or the older
  `SB1:port:table:access`, and written in the first.

  Translation. Reading a socket address is the parameter `parseAddress`; its printing is
  written out here. Fields are split character by character; the bytes of an access code
  are checked as characters, since a byte outside ASCII passes no check.

  Proved, for every text: an invite that was read is written as a text that reads as the
  same invite, whichever form and spelling it came from, and two invites are written alike
  exactly when they are the same (`invites_round_trip`).
-/

import OpenFelt.Lib.Numerals
import OpenFelt.Network.Admission
import OpenFelt.Protocol.RingHistory
import Mathlib.Data.List.DropRight

namespace OpenFelt

/-! ## Socket addresses -/

inductive SocketAddr where
  | v4 (ip : BitVec 32) (port : BitVec 16)
  | v6 (ip : BitVec 128) (port : BitVec 16) (flowinfo scopeId : BitVec 32)
  deriving DecidableEq, Repr

/-- The four octets, the first the highest. -/
def ipv4Octets (ip : BitVec 32) : List Nat := [24, 16, 8, 0].map fun shift => ip.toNat / 2 ^ shift % 256

def ipv4Text (ip : BitVec 32) : String := ".".intercalate ((ipv4Octets ip).map Nat.repr)

/-- The eight segments of an address, the first the highest. -/
def ipv6Segments (ip : BitVec 128) : List Nat := [112, 96, 80, 64, 48, 32, 16, 0].map fun shift => ip.toNat / 2 ^ shift % 65536

def hexText (segments : List Nat) : String := ":".intercalate (segments.map fun n => String.ofList (Nat.toDigits 16 n))

/-- The start and length of the first longest run of zeros, with those of the run being read. -/
def longestZeros : List Nat → Nat → Nat × Nat → Nat × Nat → Nat × Nat
  | [], _, longest, _ => longest
  | segment :: rest, i, longest, current =>
    if segment = 0 then
      let current := (if current.2 = 0 then i else current.1, current.2 + 1)
      longestZeros rest (i + 1) (if current.2 > longest.2 then current else longest) current
    else
      longestZeros rest (i + 1) longest (0, 0)

/-- An IPv4 address in IPv6 is printed as such, else the longest run of two or more zeros is left out. -/
def ipv6Text (ip : BitVec 128) : String :=
  let segments := ipv6Segments ip
  let zeroes := longestZeros segments 0 (0, 0) (0, 0)
  if ip.toNat / 2 ^ 32 = 0xffff then
    "::ffff:" ++ ipv4Text (ip.setWidth 32)
  else if zeroes.2 > 1 then
    hexText (segments.take zeroes.1) ++ "::" ++ hexText (segments.drop (zeroes.1 + zeroes.2))
  else
    hexText segments

namespace SocketAddr

def port : SocketAddr → Nat
  | v4 _ port => port.toNat
  | v6 _ port _ _ => port.toNat

def isLoopback : SocketAddr → Bool
  | v4 ip _ => (ipv4Octets ip).head? = some 127
  | v6 ip _ _ _ => ip = 1

/-- The flow information is not printed. -/
def text : SocketAddr → String
  | v4 ip port => ipv4Text ip ++ ":" ++ port.toNat.repr
  | v6 ip port _ scopeId =>
    if scopeId = 0 then
      "[" ++ ipv6Text ip ++ "]:" ++ port.toNat.repr
    else
      "[" ++ ipv6Text ip ++ "%" ++ scopeId.toNat.repr ++ "]:" ++ port.toNat.repr

end SocketAddr

def localServerAddress (parseAddress : String → Option SocketAddr) (value : String) : Except String SocketAddr :=
  match parseAddress value with
  | none => .error "Use a server IP address and port"
  | some address =>
    if !address.isLoopback || address.port = 0 then
      .error "This build supports a local dedicated server only; use a loopback address and nonzero port"
    else
      .ok address

/-! ## Reading and writing -/

/-- The characters of Unicode's property `White_Space`. -/
def isWhitespace (c : Char) : Bool :=
  (0x9 ≤ c.toNat && c.toNat ≤ 0xd) || c.toNat = 0x20 || c.toNat = 0x85 || c.toNat = 0xa0 || c.toNat = 0x1680 ||
    (0x2000 ≤ c.toNat && c.toNat ≤ 0x200a) || c.toNat = 0x2028 || c.toNat = 0x2029 || c.toNat = 0x202f ||
      c.toNat = 0x205f || c.toNat = 0x3000

def trim (text : List Char) : List Char := (text.dropWhile isWhitespace).rdropWhile isWhitespace

structure GameInvite where
  address : SocketAddr
  tableId : TableId
  access : String
  deriving DecidableEq, Repr

namespace GameInvite

def allowedInAccess (c : Char) : Bool := c.isAlphanum || c = '-' || c = '_'

/-- The address, table and access fields of a text without surrounding whitespace. -/
def fields (parseAddress : String → Option SocketAddr) (value : List Char) : Except String (SocketAddr × List Char × List Char) :=
  match value.splitOn '|' with
  | [['S', 'B', '2'], address, table, access] =>
    (localServerAddress parseAddress (String.ofList address)).map fun address => (address, table, access)
  | _ =>
    match value.splitOn ':' with
    | [['S', 'B', '1'], port, table, access] =>
      match Numerals.parseUnsigned 65535 port with
      | none => .error "Invalid invite port"
      | some port => (localServerAddress parseAddress ("127.0.0.1:" ++ port.repr)).map fun address => (address, table, access)
    | _ => .error "Use a complete SB2 or SB1 game invite"

def parse (parseAddress : String → Option SocketAddr) (value : String) : Except String GameInvite :=
  if value.utf8ByteSize > 160 then
    .error "Invite is too long"
  else
    match fields parseAddress (trim value.toList) with
    | .error error => .error error
    | .ok (address, table, access) =>
      match Numerals.parseUnsigned u64Max table with
      | none => .error "Invalid invite table"
      | some id =>
        if id = 0 || (String.ofList access).utf8ByteSize = 0 || (String.ofList access).utf8ByteSize > 64 ||
            !access.all allowedInAccess then
          .error "Invalid invite table or access code"
        else
          .ok { address := address, tableId := ⟨id⟩, access := String.ofList access }

def encode (i : GameInvite) : String := "SB2|" ++ i.address.text ++ "|" ++ i.tableId.id.repr ++ "|" ++ i.access

/-- What an invite that was read is known to be. -/
structure Accepted (parseAddress : String → Option SocketAddr) (i : GameInvite) : Prop where
  read : ∃ text, parseAddress text = some i.address
  loopback : i.address.isLoopback = true
  port : i.address.port ≠ 0
  table : i.tableId.id ≠ 0
  tableBound : i.tableId.id ≤ u64Max
  access : i.access.toList ≠ []
  accessSize : i.access.utf8ByteSize ≤ 64
  accessChars : ∀ c ∈ i.access.toList, allowedInAccess c = true

variable {parseAddress : String → Option SocketAddr} {i : GameInvite}

/-! ## What was read -/

theorem localServerAddress_ok {value : String} {address : SocketAddr} (h : localServerAddress parseAddress value = .ok address) :
    parseAddress value = some address ∧ address.isLoopback = true ∧ address.port ≠ 0 := by
  unfold localServerAddress at h
  split at h
  · cases h
  · rename_i found hfound
    split at h
    · cases h
    · rename_i hguard
      obtain rfl := Except.ok.inj h
      simp only [Bool.or_eq_true, Bool.not_eq_true', decide_eq_true_eq, not_or, Bool.not_eq_false] at hguard
      exact ⟨hfound, hguard.1, hguard.2⟩

theorem map_ok {value : String} {address : SocketAddr} {table access table' access' : List Char}
    (h : (localServerAddress parseAddress value).map (fun address => (address, table, access)) = .ok (address, table', access')) :
    (∃ text, parseAddress text = some address) ∧ address.isLoopback = true ∧ address.port ≠ 0 := by
  cases hfound : localServerAddress parseAddress value with
  | error error =>
    rw [hfound] at h
    cases h
  | ok found =>
    rw [hfound] at h
    obtain ⟨rfl, -⟩ := Prod.mk.inj (Except.ok.inj h)
    exact (localServerAddress_ok hfound).imp_left fun hread => ⟨value, hread⟩

theorem fields_ok {value table access : List Char} {address : SocketAddr}
    (h : fields parseAddress value = .ok (address, table, access)) :
    (∃ text, parseAddress text = some address) ∧ address.isLoopback = true ∧ address.port ≠ 0 := by
  unfold fields at h
  split at h
  · exact map_ok h
  · split at h
    · split at h
      · cases h
      · exact map_ok h
    · cases h

theorem parse_ok {value : String} (h : parse parseAddress value = .ok i) : i.Accepted parseAddress := by
  unfold parse at h
  split at h
  · cases h
  · split at h
    · cases h
    · rename_i address table access hfields
      split at h
      · cases h
      · rename_i id hid
        split at h
        · cases h
        · rename_i hguard
          obtain rfl := Except.ok.inj h
          obtain ⟨hread, hloopback, hport⟩ := fields_ok hfields
          simp only [Bool.or_eq_true, decide_eq_true_eq, Bool.not_eq_true', not_or, Bool.not_eq_false] at hguard
          obtain ⟨⟨⟨hzero, hempty⟩, hlong⟩, hchars⟩ := hguard
          refine ⟨hread, hloopback, hport, hzero, Numerals.parseUnsigned_le hid, ?_, Nat.le_of_not_gt hlong, ?_⟩
          · intro hnil
            rw [String.toList_ofList] at hnil
            exact hempty (by rw [hnil]; rfl)
          · intro c hc
            rw [String.toList_ofList] at hc
            exact List.all_eq_true.mp hchars c hc

/-! ## What is written -/

theorem allowed_toNat {c : Char} (h : allowedInAccess c = true) : 0x20 < c.toNat ∧ c.toNat < 0x7b := by
  have hrange : ∀ {low high : Char}, low.val ≤ c.val → c.val ≤ high.val → low.toNat ≤ c.toNat ∧ c.toNat ≤ high.toNat :=
    fun hlow hhigh => ⟨UInt32.le_iff_toNat_le.mp hlow, UInt32.le_iff_toNat_le.mp hhigh⟩
  delta allowedInAccess Char.isAlphanum Char.isAlpha Char.isUpper Char.isLower Char.isDigit at h
  simp only [Bool.or_eq_true, Bool.and_eq_true, decide_eq_true_eq] at h
  rcases h with (((⟨hlow, hhigh⟩ | ⟨hlow, hhigh⟩) | ⟨hlow, hhigh⟩) | rfl) | rfl
  · exact (hrange hlow hhigh).imp (Nat.lt_of_lt_of_le (by decide)) fun hle => Nat.lt_of_le_of_lt hle (by decide)
  · exact (hrange hlow hhigh).imp (Nat.lt_of_lt_of_le (by decide)) fun hle => Nat.lt_of_le_of_lt hle (by decide)
  · exact (hrange hlow hhigh).imp (Nat.lt_of_lt_of_le (by decide)) fun hle => Nat.lt_of_le_of_lt hle (by decide)
  · decide
  · decide

theorem isWhitespace_allowed {c : Char} (h : allowedInAccess c = true) : isWhitespace c = false := by
  obtain ⟨hlow, hhigh⟩ := allowed_toNat h
  simp only [isWhitespace, Bool.or_eq_false_iff, Bool.and_eq_false_iff, decide_eq_false_iff_not]
  omega

theorem ne_bar_allowed {c : Char} (h : allowedInAccess c = true) : c ≠ '|' := by
  rintro rfl
  exact absurd h (by decide)

/-- A character of the printed address of a local server. -/
def plain (c : Char) : Bool := c.isDigit || c = '.' || c = ':' || c = '[' || c = ']' || c = '%'

theorem plain_repr {n : Nat} {c : Char} (h : c ∈ n.repr.toList) : plain c = true := by
  simp [plain, Numerals.isDigit_of_mem h]

theorem ipv4Text_eq (ip : BitVec 32) : ipv4Text ip = (ip.toNat / 2 ^ 24 % 256).repr ++ "." ++
    (ip.toNat / 2 ^ 16 % 256).repr ++ "." ++
    (ip.toNat / 2 ^ 8 % 256).repr ++ "." ++ (ip.toNat / 2 ^ 0 % 256).repr := rfl

theorem repr_octet (n : Nat) : (n % 256).repr.utf8ByteSize ≤ 3 :=
  Numerals.utf8ByteSize_repr_le (by decide) (Nat.lt_trans (Nat.mod_lt n (by decide)) (by decide))

theorem repr_word {w k : Nat} (n : BitVec w) (hk : 0 < k) (h : 2 ^ w ≤ 10 ^ k) : n.toNat.repr.utf8ByteSize ≤ k :=
  Numerals.utf8ByteSize_repr_le hk (Nat.lt_of_lt_of_le n.isLt h)

theorem plain_append {a b : String} (ha : ∀ c ∈ a.toList, plain c = true) (hb : ∀ c ∈ b.toList, plain c = true) :
    ∀ c ∈ (a ++ b).toList, plain c = true := by
  intro c hc
  rw [String.toList_append, List.mem_append] at hc
  exact hc.elim (ha c) (hb c)

/-- The address of a local server is short and has no bar. -/
theorem text_loopback {address : SocketAddr} (h : address.isLoopback = true) :
    (∀ c ∈ address.text.toList, plain c = true) ∧ address.text.utf8ByteSize ≤ 22 := by
  cases address with
  | v4 ip port =>
    have hport := repr_word port (k := 5) (by decide) (by decide)
    constructor
    · have hoctet : ∀ n : Nat, ∀ c ∈ n.repr.toList, plain c = true := fun n c hc => plain_repr hc
      have hdot : ∀ c ∈ ".".toList, plain c = true := List.all_eq_true.mp (by decide)
      have hcolon : ∀ c ∈ ":".toList, plain c = true := List.all_eq_true.mp (by decide)
      rw [SocketAddr.text, ipv4Text_eq]
      exact plain_append (plain_append (plain_append (plain_append (plain_append (plain_append (plain_append (plain_append
        (hoctet _) hdot) (hoctet _)) hdot) (hoctet _)) hdot) (hoctet _)) hcolon) (hoctet _)
    · simp only [SocketAddr.text, ipv4Text_eq, String.utf8ByteSize_append]
      have h1 := repr_octet (ip.toNat / 2 ^ 24)
      have h2 := repr_octet (ip.toNat / 2 ^ 16)
      have h3 := repr_octet (ip.toNat / 2 ^ 8)
      have h4 := repr_octet (ip.toNat / 2 ^ 0)
      have hdot : ".".utf8ByteSize = 1 := rfl
      have hcolon : ":".utf8ByteSize = 1 := rfl
      omega
  | v6 ip port flowinfo scopeId =>
    have hip : ip = 1 := by simpa [SocketAddr.isLoopback] using h
    have hone : ipv6Text ip = "::1" := by
      rw [hip]
      decide
    have hport := repr_word port (k := 5) (by decide) (by decide)
    have hscope := repr_word scopeId (k := 10) (by decide) (by decide)
    have hdigits : ∀ n : Nat, ∀ c ∈ n.repr.toList, plain c = true := fun n c hc => plain_repr hc
    have hopen : ∀ c ∈ ("[" ++ "::1").toList, plain c = true := List.all_eq_true.mp (by decide)
    have hclose : ∀ c ∈ "]:".toList, plain c = true := List.all_eq_true.mp (by decide)
    have hpercent : ∀ c ∈ "%".toList, plain c = true := List.all_eq_true.mp (by decide)
    simp only [SocketAddr.text, hone]
    split
    · refine ⟨plain_append (plain_append hopen hclose) (hdigits _), ?_⟩
      simp only [String.utf8ByteSize_append]
      have hsizes : "[".utf8ByteSize = 1 ∧ "::1".utf8ByteSize = 3 ∧ "]:".utf8ByteSize = 2 := ⟨rfl, rfl, rfl⟩
      omega
    · refine ⟨plain_append (plain_append (plain_append (plain_append hopen hpercent) (hdigits _)) hclose) (hdigits _), ?_⟩
      simp only [String.utf8ByteSize_append]
      have hsizes : "[".utf8ByteSize = 1 ∧ "::1".utf8ByteSize = 3 ∧ "%".utf8ByteSize = 1 ∧ "]:".utf8ByteSize = 2 :=
        ⟨rfl, rfl, rfl, rfl⟩
      omega

/-! ## The round trip -/

theorem trim_eq {first last : Char} {middle : List Char} (hfirst : isWhitespace first = false)
    (hlast : isWhitespace last = false) :
    trim (first :: (middle ++ [last])) = first :: (middle ++ [last]) := by
  rw [trim, List.dropWhile_cons_of_neg (by simp [hfirst])]
  exact List.rdropWhile_concat_neg isWhitespace (first :: middle) last (by simp [hlast])

theorem encode_toList (i : GameInvite) : i.encode.toList =
    ['S', 'B', '2'] ++ '|' :: (i.address.text.toList ++ '|' :: (i.tableId.id.repr.toList ++ '|' :: i.access.toList)) := by
  simp [encode]

theorem ne_bar_of_plain {c : Char} (h : plain c = true) : c ≠ '|' := by
  rintro rfl
  exact absurd h (by decide)

theorem splitOn_bar {field rest : List Char} (h : ∀ c ∈ field, c ≠ '|') :
    (field ++ '|' :: rest).splitOn '|' = field :: rest.splitOn '|' :=
  List.splitOnP_append_cons_of_forall_mem (fun c hc => by simpa using h c hc) '|' (by decide) rest

namespace Accepted

theorem trims (ha : i.Accepted parseAddress) : trim i.encode.toList = i.encode.toList := by
  -- the last character is the access code's last
  have hlast := List.dropLast_append_getLast ha.access
  rw [encode_toList, ← hlast]
  have hsplit : ∀ middle : List Char, ['S', 'B', '2'] ++
      '|' :: (i.address.text.toList ++ '|' :: (i.tableId.id.repr.toList ++ '|' ::
      (middle ++ [i.access.toList.getLast ha.access]))) = 'S' :: ((['B', '2'] ++ '|' :: (i.address.text.toList ++ '|' ::
      (i.tableId.id.repr.toList ++ '|' :: middle))) ++ [i.access.toList.getLast ha.access]) := by
    intro middle
    simp
  rw [hsplit]
  exact trim_eq (by decide) (isWhitespace_allowed (ha.accessChars _ (List.getLast_mem ha.access)))

theorem splits (ha : i.Accepted parseAddress) : i.encode.toList.splitOn '|' =
    [['S', 'B', '2'], i.address.text.toList, i.tableId.id.repr.toList, i.access.toList] := by
  have haddress : ∀ c ∈ i.address.text.toList, c ≠ '|' := fun c hc => ne_bar_of_plain ((text_loopback ha.loopback).1 c hc)
  have htable : ∀ c ∈ i.tableId.id.repr.toList, c ≠ '|' := fun c hc => ne_bar_of_plain (plain_repr hc)
  have haccess : i.access.toList.splitOn '|' = [i.access.toList] :=
    List.splitOnP_eq_singleton fun c hc => by simpa using ne_bar_allowed (ha.accessChars c hc)
  have hmark : ∀ c ∈ ['S', 'B', '2'], c ≠ '|' := by simp
  rw [encode_toList, splitOn_bar hmark, splitOn_bar haddress, splitOn_bar htable, haccess]

theorem short (ha : i.Accepted parseAddress) : i.encode.utf8ByteSize ≤ 160 := by
  have haddress := (text_loopback ha.loopback).2
  have htable : i.tableId.id.repr.utf8ByteSize ≤ 20 :=
    Numerals.utf8ByteSize_repr_le (by decide) (Nat.lt_of_le_of_lt ha.tableBound (by decide))
  have haccess := ha.accessSize
  simp only [encode, String.utf8ByteSize_append]
  have hsizes : "SB2|".utf8ByteSize = 4 ∧ "|".utf8ByteSize = 1 := ⟨rfl, rfl⟩
  omega

/-- An invite that was read is read back from what it is written as. -/
theorem parses (ha : i.Accepted parseAddress)
    (hinverse : ∀ text address, parseAddress text = some address → parseAddress address.text = some address) :
    parse parseAddress i.encode = .ok i := by
  obtain ⟨text, hread⟩ := ha.read
  have hserver : localServerAddress parseAddress i.address.text = .ok i.address := by
    rw [localServerAddress, hinverse text i.address hread]
    simp [ha.loopback, ha.port]
  have hfields : fields parseAddress i.encode.toList = .ok (i.address, i.tableId.id.repr.toList, i.access.toList) := by
    rw [fields, ha.splits]
    simp only [String.ofList_toList]
    rw [hserver]
    rfl
  have hnonempty : i.access.utf8ByteSize ≠ 0 := by
    intro hzero
    rw [String.utf8ByteSize_eq_zero_iff] at hzero
    exact ha.access (by rw [hzero]; rfl)
  have hchars : i.access.toList.all allowedInAccess = true := List.all_eq_true.mpr ha.accessChars
  have hsize := ha.accessSize
  rw [parse, if_neg (Nat.not_lt.mpr ha.short), ha.trims, hfields]
  dsimp only
  rw [Numerals.parseUnsigned_repr ha.tableBound]
  simp [ha.table, hnonempty, hchars, hsize]

end Accepted

/-- An accepted invite reads back from its encoding, and two are written alike exactly when they are the same,
    where an address that was read is read from its printing. -/
theorem invites_round_trip (parseAddress : String → Option SocketAddr)
    (hinverse : ∀ text address, parseAddress text = some address → parseAddress address.text = some address) :
    (∀ value i, parse parseAddress value = .ok i → parse parseAddress i.encode = .ok i) ∧
    ∀ value value' i i', parse parseAddress value = .ok i → parse parseAddress value' = .ok i' →
      (i.encode = i'.encode ↔ i.address = i'.address ∧ i.tableId = i'.tableId ∧ i.access = i'.access) := by
  constructor
  · intro value i h
    exact (parse_ok h).parses hinverse
  · intro value value' i i' h h'
    constructor
    · intro he
      have hread := (parse_ok h).parses hinverse
      rw [he, (parse_ok h').parses hinverse] at hread
      obtain rfl := Except.ok.inj hread
      exact ⟨rfl, rfl, rfl⟩
    · rintro ⟨haddress, htable, haccess⟩
      rw [encode, encode, haddress, htable, haccess]

/-- The two spellings of the local server's address, and no other text. -/
def localAddress (text : String) : Option SocketAddr :=
  if text = "127.0.0.1:7777" then
    some (.v4 0x7f000001 7777)
  else if text = "[::1]:7777" || text = "[0:0:0:0:0:0:0:1]:07777" then
    some (.v6 1 7777 0 0)
  else
    none

/-- An old invite, and one with another spelling of its address and table and with spaces around it. -/
theorem invites_round_trip_local :
    parse localAddress (GameInvite.mk (.v4 0x7f000001 7777) ⟨9⟩ "private-code").encode =
      .ok ⟨.v4 0x7f000001 7777, ⟨9⟩, "private-code"⟩ ∧
    parse localAddress (GameInvite.mk (.v6 1 7777 0 0) ⟨9⟩ "private-code").encode =
      .ok ⟨.v6 1 7777 0 0, ⟨9⟩, "private-code"⟩ := by
  have hinverse : ∀ text address, localAddress text = some address → localAddress address.text = some address := by
    intro text address h
    unfold localAddress at h
    split at h
    · obtain rfl := Option.some.inj h
      decide
    · split at h
      · obtain rfl := Option.some.inj h
        decide
      · cases h
  exact ⟨(invites_round_trip localAddress hinverse).1 "SB1:7777:9:private-code" _ (by decide),
    (invites_round_trip localAddress hinverse).1 " SB2|[0:0:0:0:0:0:0:1]:07777|+09|private-code\n" _ (by decide)⟩

end GameInvite

end OpenFelt
