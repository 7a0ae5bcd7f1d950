import Mathlib.Tactic.SplitIfs
import ScriptLinker.Text.Utf8
/-!
# Reading bytes that need not be UTF-8

`CharBytes` lists the ways to encode a character, and `Lossy` says how any bytes are to
be read: as characters, with one replacement character for each maximal ill-formed
prefix where no character starts. Reading byte by byte does that. A sequence that is open
between two bytes goes on with just those bytes that some character goes on with, which
is what its bounds are for.
-/

namespace ScriptLinker.Utf8

/-- The byte that continues a character with six bits of its number. -/
def tail (digit : Nat) : UInt8 := .ofNat (digit + 0x80)

theorem toNat_tail {digit : Nat} (h : digit < 64) : (tail digit).toNat = digit + 0x80 :=
  UInt8.toNat_ofNat_of_lt' (show digit + 0x80 < 256 by omega)

/-- The number of a character and the bytes that encode it. The second byte rules out what
fewer bytes encode, the surrogates, and what is past the last character. -/
inductive CharBytes : Nat → Bytes → Prop where
  | one {n : Nat} (hn : n < 0x80) : CharBytes n [.ofNat n]
  | two {lead last : Nat} (hlong : 2 ≤ lead) (hlead : lead < 32) (hlast : last < 64) :
      CharBytes (lead * 64 + last) [.ofNat (lead + 0xC0), tail last]
  | three {lead second last : Nat} (hlead : lead < 16) (hsecond : second < 64)
      (hlong : 32 ≤ lead * 64 + second)
      (hscalar : lead * 64 + second < 0x360 ∨ 0x37F < lead * 64 + second) (hlast : last < 64) :
      CharBytes ((lead * 64 + second) * 64 + last)
        [.ofNat (lead + 0xE0), tail second, tail last]
  | four {lead second third last : Nat} (hsecond : second < 64)
      (hlong : 16 ≤ lead * 64 + second) (hscalar : lead * 64 + second < 0x110)
      (hthird : third < 64) (hlast : last < 64) :
      CharBytes (((lead * 64 + second) * 64 + third) * 64 + last)
        [.ofNat (lead + 0xF0), tail second, tail third, tail last]

theorem charBytes_utf8EncodeChar (char : Char) :
    CharBytes char.toNat (String.utf8EncodeChar char) := by
  have hvalid : char.val.toNat < 0xD800 ∨ 0xDFFF < char.val.toNat ∧ char.val.toNat < 0x110000 :=
    char.valid
  change CharBytes char.val.toNat _
  simp only [String.utf8EncodeChar]
  generalize char.val.toNat = n at hvalid
  split_ifs with hone htwo hthree
  · exact .one (by omega)
  · have h : CharBytes (n / 64 * 64 + n % 64) [.ofNat (n / 64 + 0xC0), tail (n % 64)] :=
      .two (by omega) (by omega) (by omega)
    rwa [show n / 64 * 64 + n % 64 = n by omega, show n / 64 = n / 64 % 32 by omega] at h
  · have h : CharBytes ((n / 4096 * 64 + n / 64 % 64) * 64 + n % 64)
        [.ofNat (n / 4096 + 0xE0), tail (n / 64 % 64), tail (n % 64)] :=
      .three (by omega) (by omega) (by omega) (by omega) (by omega)
    rwa [show (n / 4096 * 64 + n / 64 % 64) * 64 + n % 64 = n by omega,
      show n / 4096 = n / 4096 % 16 by omega] at h
  · have h : CharBytes (((n / 262144 * 64 + n / 4096 % 64) * 64 + n / 64 % 64) * 64 + n % 64)
        [.ofNat (n / 262144 + 0xF0), tail (n / 4096 % 64), tail (n / 64 % 64), tail (n % 64)] :=
      .four (by omega) (by omega) (by omega) (by omega) (by omega)
    rwa [show ((n / 262144 * 64 + n / 4096 % 64) * 64 + n / 64 % 64) * 64 + n % 64 = n by omega,
      show n / 262144 = n / 262144 % 8 by omega] at h

theorem val_ofNat {n : Nat} (h : n < 0xD800 ∨ 0xDFFF < n ∧ n < 0x110000) :
    (Char.ofNat n).val.toNat = n := by
  have hvalid : Char.ofNat n = Char.ofNatAux n h := dif_pos h
  rw [hvalid]
  rfl

theorem CharBytes.encode_eq {n : Nat} {bytes : Bytes} (h : CharBytes n bytes) :
    String.utf8EncodeChar (.ofNat n) = bytes := by
  cases h with
  | one hn =>
      simp only [String.utf8EncodeChar]
      rw [val_ofNat (by omega), if_pos (by omega)]
  | @two lead last hlong hlead hlast =>
      simp only [String.utf8EncodeChar]
      rw [val_ofNat (by omega), if_neg (by omega), if_pos (by omega),
        show (lead * 64 + last) / 64 % 32 = lead by omega,
        show (lead * 64 + last) % 64 = last by omega]
      rfl
  | @three lead second last hlead hsecond hlong hscalar hlast =>
      simp only [String.utf8EncodeChar]
      rw [val_ofNat (by omega), if_neg (by omega), if_neg (by omega), if_pos (by omega),
        show ((lead * 64 + second) * 64 + last) / 4096 % 16 = lead by omega,
        show ((lead * 64 + second) * 64 + last) / 64 % 64 = second by omega,
        show ((lead * 64 + second) * 64 + last) % 64 = last by omega]
      rfl
  | @four lead second third last hsecond hlong hscalar hthird hlast =>
      simp only [String.utf8EncodeChar]
      rw [val_ofNat (by omega), if_neg (by omega), if_neg (by omega), if_neg (by omega),
        show (((lead * 64 + second) * 64 + third) * 64 + last) / 262144 % 8 = lead by omega,
        show (((lead * 64 + second) * 64 + third) * 64 + last) / 4096 % 64 = second by omega,
        show (((lead * 64 + second) * 64 + third) * 64 + last) / 64 % 64 = third by omega,
        show (((lead * 64 + second) * 64 + third) * 64 + last) % 64 = last by omega]
      rfl


/-- Whether the bytes of some character start with these. -/
def Starts (bytes : Bytes) : Prop :=
  ∃ char : Char, bytes <+: String.utf8EncodeChar char

theorem CharBytes.starts {n : Nat} {bytes start : Bytes} (h : CharBytes n bytes)
    (hstart : start <+: bytes) : Starts start :=
  ⟨.ofNat n, by rwa [h.encode_eq]⟩

/-- The bytes within the bounds are those that continue a character with such six bits. -/
def Bounds (low high : UInt8) (digits : Nat → Prop) : Prop :=
  ∀ byte, low ≤ byte ∧ byte ≤ high ↔ ∃ digit < 64, digits digit ∧ tail digit = byte

theorem bounds_of_iff {low high : UInt8} {digits : Nat → Prop} (hlow : 0x80 ≤ low.toNat)
    (hhigh : high.toNat ≤ 0xBF)
    (h : ∀ digit < 64, low.toNat ≤ digit + 0x80 ∧ digit + 0x80 ≤ high.toNat ↔ digits digit) :
    Bounds low high digits := by
  intro byte
  rw [UInt8.le_iff_toNat_le, UInt8.le_iff_toNat_le]
  constructor
  · intro hbyte
    have hdigit : byte.toNat - 0x80 < 64 := by omega
    have hnumber : byte.toNat - 0x80 + 0x80 = byte.toNat := by omega
    refine ⟨byte.toNat - 0x80, hdigit, ?_, ?_⟩
    · rwa [← h _ hdigit, hnumber]
    · rw [← UInt8.toNat_inj, toNat_tail hdigit, hnumber]
  · rintro ⟨digit, hdigit, hdigits, rfl⟩
    rwa [toNat_tail hdigit, h _ hdigit]

theorem bounds_tail : Bounds 0x80 0xBF fun _ => True :=
  bounds_of_iff (by decide) (by decide) fun digit hdigit => by simp; omega

/-- What a byte starts, by its number. -/
theorem start_ofNat {n : Nat} (hn : n < 256) :
    start (.ofNat n) =
      if n ≤ 0x7F then ([Char.ofNat n], .fresh)
      else if n < 0xC2 then ([replacement], .fresh)
      else if n ≤ 0xDF then ([], .within (n % 32) 0 0x80 0xBF)
      else if n = 0xE0 then ([], .within (n % 16) 1 0xA0 0xBF)
      else if n = 0xED then ([], .within (n % 16) 1 0x80 0x9F)
      else if n ≤ 0xEF then ([], .within (n % 16) 1 0x80 0xBF)
      else if n = 0xF0 then ([], .within (n % 8) 2 0x90 0xBF)
      else if n ≤ 0xF3 then ([], .within (n % 8) 2 0x80 0xBF)
      else if n = 0xF4 then ([], .within (n % 8) 2 0x80 0x8F)
      else ([replacement], .fresh) := by
  have hnumber : (UInt8.ofNat n).toNat = n := UInt8.toNat_ofNat_of_lt' hn
  simp only [start, UInt8.le_iff_toNat_le, UInt8.lt_iff_toNat_lt, ← UInt8.toNat_inj, hnumber]
  rfl

theorem start_two {lead : Nat} (hlong : 2 ≤ lead) (hlead : lead < 32) :
    start (.ofNat (lead + 0xC0)) = ([], .within lead 0 0x80 0xBF) := by
  rw [start_ofNat (by omega), if_neg (by omega), if_neg (by omega), if_pos (by omega),
    show (lead + 0xC0) % 32 = lead by omega]

theorem start_three {lead : Nat} (hlead : lead < 16) :
    ∃ low high, start (.ofNat (lead + 0xE0)) = ([], .within lead 1 low high) ∧
      Bounds low high fun second => 32 ≤ lead * 64 + second ∧
        (lead * 64 + second < 0x360 ∨ 0x37F < lead * 64 + second) := by
  rw [start_ofNat (by omega), if_neg (by omega), if_neg (by omega), if_neg (by omega),
    show (lead + 0xE0) % 16 = lead by omega]
  split_ifs
  · exact ⟨0xA0, 0xBF, rfl, bounds_of_iff (by decide) (by decide) fun _ _ => by simp; omega⟩
  · exact ⟨0x80, 0x9F, rfl, bounds_of_iff (by decide) (by decide) fun _ _ => by simp; omega⟩
  · exact ⟨0x80, 0xBF, rfl, bounds_of_iff (by decide) (by decide) fun _ _ => by simp; omega⟩
  all_goals omega

theorem start_four {lead : Nat} (hlead : lead < 5) :
    ∃ low high, start (.ofNat (lead + 0xF0)) = ([], .within lead 2 low high) ∧
      Bounds low high fun second => 16 ≤ lead * 64 + second ∧ lead * 64 + second < 0x110 := by
  rw [start_ofNat (by omega), if_neg (by omega), if_neg (by omega), if_neg (by omega),
    if_neg (by omega), if_neg (by omega), if_neg (by omega),
    show (lead + 0xF0) % 8 = lead by omega]
  split_ifs
  · exact ⟨0x90, 0xBF, rfl, bounds_of_iff (by decide) (by decide) fun _ _ => by simp; omega⟩
  · exact ⟨0x80, 0xBF, rfl, bounds_of_iff (by decide) (by decide) fun _ _ => by simp; omega⟩
  · exact ⟨0x80, 0x8F, rfl, bounds_of_iff (by decide) (by decide) fun _ _ => by simp; omega⟩
  · omega


/-- Reading the bytes leaves that sequence open, and nothing else behind. -/
def Opens (bytes : Bytes) (value more : Nat) (low high : UInt8) : Prop :=
  ∀ rest, readAll .fresh (bytes ++ rest) = readAll (.within value more low high) rest

section

variable {bytes rest : Bytes} {byte low high : UInt8} {value more digit : Nat}
  {digits : Nat → Prop}

theorem opens_of_start (h : start byte = ([], .within value more low high)) :
    Opens [byte] value more low high := by
  intro rest
  rw [List.singleton_append, readAll_cons, step, h, List.nil_append]

/-- A byte within the bounds leaves one byte less to come. -/
theorem Opens.continue (h : Opens bytes value (more + 1) low high)
    (hbounds : Bounds low high digits) (hdigit : digit < 64) (hdigits : digits digit) :
    Opens (bytes ++ [tail digit]) (value * 64 + digit) more 0x80 0xBF := by
  intro rest
  have hpayload : (digit + 0x80) % 64 = digit := by omega
  rw [List.append_assoc, h, List.singleton_append, readAll_cons, step,
    if_pos ((hbounds _).2 ⟨digit, hdigit, hdigits, rfl⟩), toNat_tail hdigit, hpayload,
    List.nil_append]

/-- The last byte makes the character. -/
theorem Opens.finish (h : Opens bytes value 0 low high) (hbounds : Bounds low high digits)
    (hdigit : digit < 64) (hdigits : digits digit) :
    readAll .fresh (bytes ++ [tail digit] ++ rest) =
      Char.ofNat (value * 64 + digit) :: readAll .fresh rest := by
  have hpayload : (digit + 0x80) % 64 = digit := by omega
  rw [List.append_assoc, h, List.singleton_append, readAll_cons, step,
    if_pos ((hbounds _).2 ⟨digit, hdigit, hdigits, rfl⟩), toNat_tail hdigit, hpayload]
  rfl

/-- A byte outside the bounds, like the end of the bytes, breaks the sequence off. -/
theorem Opens.break_off (h : Opens bytes value more low high)
    (hout : ∀ byte ∈ rest.head?, ¬ (low ≤ byte ∧ byte ≤ high)) :
    readAll .fresh (bytes ++ rest) = replacement :: readAll .fresh rest := by
  rw [h]
  cases rest with
  | nil => rfl
  | cons byte rest => rw [readAll_cons, step, if_neg (hout byte rfl), readAll_cons]; rfl

end

/-- A character is read from its bytes, whatever follows them. -/
theorem CharBytes.readAll_eq {n : Nat} {bytes : Bytes} (h : CharBytes n bytes) (rest : Bytes) :
    readAll .fresh (bytes ++ rest) = Char.ofNat n :: readAll .fresh rest := by
  cases h with
  | one hn =>
      rw [List.singleton_append, readAll_cons, step, start_ofNat (by omega), if_pos (by omega)]
      rfl
  | two hlong hlead hlast =>
      exact (opens_of_start (start_two hlong hlead)).finish bounds_tail hlast trivial
  | three hlead hsecond hlong hscalar hlast =>
      obtain ⟨low, high, hstart, hbounds⟩ := start_three hlead
      exact ((opens_of_start hstart).continue hbounds hsecond ⟨hlong, hscalar⟩).finish
        bounds_tail hlast trivial
  | @four lead _ _ _ hsecond hlong hscalar hthird hlast =>
      obtain ⟨low, high, hstart, hbounds⟩ := start_four (show lead < 5 by omega)
      exact (((opens_of_start hstart).continue hbounds hsecond ⟨hlong, hscalar⟩).continue
        bounds_tail hthird trivial).finish bounds_tail hlast trivial

/-- Part of the bytes of a character leaves a sequence open, which goes on only with a byte
with which some character goes on. -/
theorem CharBytes.exists_opens {n count : Nat} {bytes : Bytes} (h : CharBytes n bytes)
    (hsome : 0 < count) (hpart : count < bytes.length) :
    ∃ value more low high, Opens (bytes.take count) value more low high ∧
      ∀ byte, low ≤ byte ∧ byte ≤ high → Starts (bytes.take count ++ [byte]) := by
  cases h with
  | one hn => exact absurd hpart (by simp; omega)
  | two hlong hlead hlast =>
      obtain rfl : count = 1 := by simp at hpart; omega
      refine ⟨_, _, _, _, opens_of_start (start_two hlong hlead), fun byte hbyte => ?_⟩
      obtain ⟨digit, hdigit, -, rfl⟩ := (bounds_tail byte).1 hbyte
      exact (CharBytes.two hlong hlead hdigit).starts List.prefix_rfl
  | three hlead hsecond hlong hscalar hlast =>
      obtain ⟨low, high, hstart, hbounds⟩ := start_three hlead
      have hopens := opens_of_start hstart
      obtain rfl | rfl : count = 1 ∨ count = 2 := by simp at hpart; omega
      · refine ⟨_, _, _, _, hopens, fun byte hbyte => ?_⟩
        obtain ⟨digit, hdigit, ⟨hlong, hscalar⟩, rfl⟩ := (hbounds byte).1 hbyte
        exact (CharBytes.three hlead hdigit hlong hscalar hlast).starts (List.prefix_append _ _)
      · refine ⟨_, _, _, _, hopens.continue hbounds hsecond ⟨hlong, hscalar⟩,
          fun byte hbyte => ?_⟩
        obtain ⟨digit, hdigit, -, rfl⟩ := (bounds_tail byte).1 hbyte
        exact (CharBytes.three hlead hsecond hlong hscalar hdigit).starts List.prefix_rfl
  | @four lead _ _ _ hsecond hlong hscalar hthird hlast =>
      obtain ⟨low, high, hstart, hbounds⟩ := start_four (show lead < 5 by omega)
      have hopens := opens_of_start hstart
      have hmore := hopens.continue hbounds hsecond ⟨hlong, hscalar⟩
      obtain rfl | rfl | rfl : count = 1 ∨ count = 2 ∨ count = 3 := by simp at hpart; omega
      · refine ⟨_, _, _, _, hopens, fun byte hbyte => ?_⟩
        obtain ⟨digit, hdigit, ⟨hlong, hscalar⟩, rfl⟩ := (hbounds byte).1 hbyte
        exact (CharBytes.four hdigit hlong hscalar hthird hlast).starts (List.prefix_append _ _)
      · refine ⟨_, _, _, _, hmore, fun byte hbyte => ?_⟩
        obtain ⟨digit, hdigit, -, rfl⟩ := (bounds_tail byte).1 hbyte
        exact (CharBytes.four hsecond hlong hscalar hdigit hlast).starts (List.prefix_append _ _)
      · refine ⟨_, _, _, _, hmore.continue bounds_tail hthird trivial, fun byte hbyte => ?_⟩
        obtain ⟨digit, hdigit, -, rfl⟩ := (bounds_tail byte).1 hbyte
        exact (CharBytes.four hsecond hlong hscalar hthird hdigit).starts List.prefix_rfl

theorem exists_ofNat (byte : UInt8) : ∃ n < 256, UInt8.ofNat n = byte :=
  ⟨byte.toNat, byte.toNat_lt, UInt8.ofNat_toNat⟩

/-- A byte that starts no character is replaced. A lead of three bytes is tried with the
middle of the range that may follow it, and from `0xED` on with the start: after that byte
the middle would be a surrogate, before it the start too short. -/
theorem start_of_not_starts {byte : UInt8} (h : ¬ Starts [byte]) :
    start byte = ([replacement], .fresh) := by
  have hnone : ∀ {n : Nat} {bytes : Bytes}, ¬ CharBytes n (byte :: bytes) :=
    fun hchar => h (hchar.starts (List.prefix_append [byte] _))
  obtain ⟨n, hn, rfl⟩ := exists_ofNat byte
  have htwo : ∀ lead, 2 ≤ lead → lead < 32 → n ≠ lead + 0xC0 := by
    rintro lead hlong hlead rfl
    exact hnone (.two hlong hlead (show 0 < 64 by decide))
  have hthree : ∀ lead < 16, n ≠ lead + 0xE0 := by
    rintro lead hlead rfl
    by_cases hsurrogates : lead * 64 + 32 < 0x360
    · exact hnone (.three hlead (show 32 < 64 by decide) (by omega) (by omega)
        (show 0 < 64 by decide))
    · exact hnone (.three hlead (show 0 < 64 by decide) (by omega) (by omega)
        (show 0 < 64 by decide))
  have hfour : ∀ lead < 5, n ≠ lead + 0xF0 := by
    rintro lead hlead rfl
    by_cases hlast : lead = 4
    · exact hnone (.four (show 0 < 64 by decide) (by omega) (by omega)
        (show 0 < 64 by decide) (show 0 < 64 by decide))
    · exact hnone (.four (show 16 < 64 by decide) (by omega) (by omega)
        (show 0 < 64 by decide) (show 0 < 64 by decide))
  have hone : ¬ n ≤ 0x7F := fun hone => hnone (.one (show n < 0x80 by omega))
  have hrange : n < 0xC2 ∨ 0xF4 < n := by
    have := htwo (n - 0xC0)
    have := hthree (n - 0xE0)
    have := hfour (n - 0xF0)
    omega
  rw [start_ofNat hn, if_neg hone]
  split_ifs <;> first | rfl | omega

/-- Whether the bytes are a maximal ill-formed prefix of what they and the rest make. -/
structure IllFormed (broken rest : Bytes) : Prop where
  /-- No character is whole. -/
  incomplete : ∀ char, ¬ String.utf8EncodeChar char <+: broken
  /-- It starts a character, or is one byte that does not. -/
  start : broken ≠ [] ∧ Starts broken ∨ ∃ byte, broken = [byte] ∧ ¬ Starts broken
  /-- The next byte does not go on with it. -/
  maximal : ∀ byte ∈ rest.head?, ¬ Starts (broken ++ [byte])

/-- A maximal ill-formed prefix is read as one replacement character. -/
theorem IllFormed.readAll_eq {broken rest : Bytes} (h : IllFormed broken rest) :
    readAll .fresh (broken ++ rest) = replacement :: readAll .fresh rest := by
  obtain ⟨hsome, char, hprefix⟩ | ⟨byte, rfl, hstarts⟩ := h.start
  · have hlength : broken.length < (String.utf8EncodeChar char).length := by
      refine Nat.lt_of_le_of_ne hprefix.length_le fun hlength => h.incomplete char ?_
      exact hprefix.eq_of_length hlength ▸ List.prefix_rfl
    obtain ⟨value, more, low, high, hopens, hgoes⟩ :=
      (charBytes_utf8EncodeChar char).exists_opens (List.length_pos_iff.2 hsome) hlength
    rw [← List.prefix_iff_eq_take.1 hprefix] at hopens hgoes
    exact hopens.break_off fun byte hbyte hbounds => h.maximal byte hbyte (hgoes byte hbounds)
  · rw [List.singleton_append, readAll_cons, step, start_of_not_starts hstarts]
    rfl

/-- How any bytes are read: what encodes a character as that character, and where none is
encoded a maximal ill-formed prefix as one replacement character. -/
inductive Lossy : Bytes → List Char → Prop where
  | nil : Lossy [] []
  | char {rest : Bytes} {chars : List Char} (char : Char) (hrest : Lossy rest chars) :
      Lossy (String.utf8EncodeChar char ++ rest) (char :: chars)
  | broken {broken rest : Bytes} {chars : List Char} (hbroken : IllFormed broken rest)
      (hrest : Lossy rest chars) : Lossy (broken ++ rest) (replacement :: chars)

theorem Lossy.readAll_eq {bytes : Bytes} {chars : List Char} (h : Lossy bytes chars) :
    readAll .fresh bytes = chars := by
  induction h with
  | nil => rfl
  | char char _ ih => rw [(charBytes_utf8EncodeChar char).readAll_eq, ih, Char.ofNat_toNat]
  | broken hbroken _ ih => rw [hbroken.readAll_eq, ih]

/-- The start of a character goes on up to where it is as long as it can be. -/
theorem exists_illFormed {start rest : Bytes} (hsome : start ≠ []) (hstart : Starts start)
    (hnone : ∀ char, ¬ String.utf8EncodeChar char <+: start ++ rest) :
    ∃ broken after, broken ≠ [] ∧ IllFormed broken after ∧ broken ++ after = start ++ rest := by
  induction rest generalizing start with
  | nil =>
      rw [List.append_nil] at hnone
      exact ⟨start, [], hsome, ⟨hnone, .inl ⟨hsome, hstart⟩, nofun⟩, rfl⟩
  | cons byte rest ih =>
      by_cases hmore : Starts (start ++ [byte])
      · rw [List.append_cons] at hnone ⊢
        exact ih (by simp) hmore hnone
      · refine ⟨start, byte :: rest, hsome, ⟨fun char hchar => hnone char ?_, .inl ⟨hsome, hstart⟩,
          ?_⟩, rfl⟩
        · exact hchar.trans (List.prefix_append _ _)
        · rintro _ ⟨⟩
          exact hmore

/-- Bytes start with those of a character or with an ill-formed prefix. -/
theorem exists_char_or_illFormed (byte : UInt8) (bytes : Bytes) :
    (∃ char rest, String.utf8EncodeChar char ++ rest = byte :: bytes) ∨
      ∃ broken rest, broken ≠ [] ∧ IllFormed broken rest ∧ broken ++ rest = byte :: bytes := by
  by_cases hchar : ∃ char, String.utf8EncodeChar char <+: byte :: bytes
  · exact .inl hchar
  · right
    have hnone := not_exists.1 hchar
    by_cases hstart : Starts [byte]
    · exact exists_illFormed (List.cons_ne_nil byte []) hstart hnone
    · have hprefix : [byte] <+: byte :: bytes := List.prefix_append [byte] bytes
      refine ⟨[byte], bytes, List.cons_ne_nil byte [], ⟨fun char hchar => ?_,
        .inr ⟨byte, rfl, hstart⟩, fun next _ => ?_⟩, rfl⟩
      · exact hnone char (hchar.trans hprefix)
      · rintro ⟨char, hmore⟩
        exact hstart ⟨char, (List.prefix_append [byte] [next]).trans hmore⟩

theorem exists_lossy (bytes : Bytes) : ∃ chars, Lossy bytes chars := by
  induction hlength : bytes.length using Nat.strongRecOn generalizing bytes with
  | ind length ih =>
      cases bytes with
      | nil => exact ⟨[], .nil⟩
      | cons byte bytes =>
          have hshorter : ∀ start rest, 0 < List.length start → start ++ rest = byte :: bytes →
              rest.length < length := by
            intro start rest hsome hbytes
            rw [← hlength, ← hbytes, List.length_append]
            omega
          obtain ⟨char, rest, hbytes⟩ | ⟨broken, rest, hsome, hbroken, hbytes⟩ :=
            exists_char_or_illFormed byte bytes
          · have hsome : 0 < (String.utf8EncodeChar char).length := by
              rw [String.length_utf8EncodeChar]
              exact char.utf8Size_pos
            obtain ⟨chars, hrest⟩ := ih _ (hshorter _ _ hsome hbytes) rest rfl
            exact ⟨char :: chars, hbytes ▸ .char char hrest⟩
          · have hsome : 0 < broken.length := List.length_pos_iff.2 hsome
            obtain ⟨chars, hrest⟩ := ih _ (hshorter _ _ hsome hbytes) rest rfl
            exact ⟨replacement :: chars, hbytes ▸ .broken hbroken hrest⟩

/-- Reading byte by byte reads any bytes as they are to be read. -/
theorem lossy_iff (bytes : Bytes) (text : String) :
    Lossy bytes text.toList ↔ decodeLossy bytes = text := by
  rw [decodeLossy]
  constructor
  · intro h
    rw [h.readAll_eq, String.ofList_toList]
  · rintro rfl
    obtain ⟨chars, h⟩ := exists_lossy bytes
    rwa [h.readAll_eq, String.toList_ofList]

/-- Of the three bytes of a character two are one ill-formed prefix, and the byte that cannot
start one is another. -/
example : decodeLossy [0x62, 0xE2, 0x82, 0x62, 0xFF] = "b\uFFFDb\uFFFD" := by decide

end ScriptLinker.Utf8
