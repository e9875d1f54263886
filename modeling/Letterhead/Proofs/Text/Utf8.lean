import Mathlib.Data.List.Infix
import Letterhead.Text.Utf8
import Letterhead.Proofs.Text.Lines

/-!
Bytes to text and back. Encoding gives back the bytes that were decoded, and decoding gives back a
text of scalar values. A line feed is a byte of its own: no sequence reaches across it, so a text
is read line by line.
-/

namespace Letterhead

namespace CodePoint

/-- The code point is one that a sequence of bytes may stand for. -/
def IsScalar (c : CodePoint) : Prop := c.val < 0xD800 ∨ 0xE000 ≤ c.val ∧ c.val < 0x110000

instance (c : CodePoint) : Decidable c.IsScalar :=
  inferInstanceAs (Decidable (c.val < 0xD800 ∨ 0xE000 ≤ c.val ∧ c.val < 0x110000))

lemma isScalar_ofChar (c : Char) : (ofChar c).IsScalar := by
  have h : c.toNat < 0xD800 ∨ 0xDFFF < c.toNat ∧ c.toNat < 0x110000 := c.valid
  rcases h with h | h
  · exact .inl h
  · exact .inr ⟨by exact h.1, h.2⟩

lemma isStray_eq_false {c : CodePoint} (h : c.IsScalar) : c.isStray = false := by
  unfold IsScalar at h
  simp only [isStray, within, Bool.and_eq_false_iff, decide_eq_false_iff_not]
  omega

lemma isSurrogate_eq_false {c : CodePoint} (h : c.IsScalar) : c.isSurrogate = false := by
  unfold IsScalar at h
  simp only [isSurrogate, within, Bool.and_eq_false_iff, decide_eq_false_iff_not]
  omega

end CodePoint

namespace Utf8

lemma ofNat_eq {n : Nat} {b : UInt8} (h : n = b.toNat) : UInt8.ofNat n = b := by
  rw [h, UInt8.ofNat_toNat]

lemma toNat_ofNat {n : Nat} (h : n < 256) : (UInt8.ofNat n).toNat = n := by
  simpa using Nat.mod_eq_of_lt h

lemma isSecond_iff {n : Nat} {b : UInt8} :
    isSecond n b = true ↔
      (0x80 ≤ b.toNat ∧ b.toNat ≤ 0xBF) ∧ (n = 0xE0 → 0xA0 ≤ b.toNat) ∧
        (n = 0xED → b.toNat ≤ 0x9F) ∧ (n = 0xF0 → 0x90 ≤ b.toNat) ∧
        (n = 0xF4 → b.toNat ≤ 0x8F) := by
  unfold isSecond secondBounds
  split <;> simp only [Bool.and_eq_true, decide_eq_true_eq] <;> grind

lemma isTail_iff {b : UInt8} : isTail b = true ↔ 0x80 ≤ b.toNat ∧ b.toNat ≤ 0xBF := by
  simp [isTail]

/-! ### The bytes of a code point -/

section Point

variable {c : CodePoint}

lemma encodePoint_one (h : c.val < 0x80) : encodePoint c = some [UInt8.ofNat c.val] := if_pos h

lemma encodePoint_two (h1 : 0x80 ≤ c.val) (h2 : c.val < 0x800) :
    encodePoint c =
      some [UInt8.ofNat (0xC0 + c.val / 64), UInt8.ofNat (0x80 + c.val % 64)] := by
  rw [encodePoint, if_neg (by omega), if_pos h2]

lemma encodePoint_three (h1 : 0x800 ≤ c.val) (h2 : c.val < 0x10000) (h : c.IsScalar) :
    encodePoint c = some [UInt8.ofNat (0xE0 + c.val / 4096), UInt8.ofNat (0x80 + c.val / 64 % 64),
      UInt8.ofNat (0x80 + c.val % 64)] := by
  rw [encodePoint, if_neg (by omega), if_neg (by omega),
    if_neg (by simp [CodePoint.isStray_eq_false h]),
    if_neg (by simp [CodePoint.isSurrogate_eq_false h]), if_pos h2]

lemma encodePoint_four (h1 : 0x10000 ≤ c.val) (h2 : c.val < 0x110000) :
    encodePoint c = some [UInt8.ofNat (0xF0 + c.val / 262144),
      UInt8.ofNat (0x80 + c.val / 4096 % 64), UInt8.ofNat (0x80 + c.val / 64 % 64),
      UInt8.ofNat (0x80 + c.val % 64)] := by
  have h : c.IsScalar := .inr ⟨by omega, h2⟩
  rw [encodePoint, if_neg (by omega), if_neg (by omega),
    if_neg (by simp [CodePoint.isStray_eq_false h]),
    if_neg (by simp [CodePoint.isSurrogate_eq_false h]), if_neg (by omega), if_pos h2]

end Point

/-! ### The code point of a sequence

A sequence of each length says a scalar value, and the value is written as the sequence.
-/

section Sequence

variable {b b1 b2 b3 : UInt8} {c : CodePoint}

lemma encodePoint_of_two (hb : 0xC2 ≤ b.toNat ∧ b.toNat ≤ 0xDF)
    (hb1 : isSecond b.toNat b1 = true)
    (hc : c.val = (b.toNat - 0xC0) * 64 + (b1.toNat - 0x80)) :
    c.IsScalar ∧ encodePoint c = some [b, b1] := by
  obtain ⟨⟨hlow, hhigh⟩, -⟩ := isSecond_iff.mp hb1
  refine ⟨.inl (by omega), ?_⟩
  rw [encodePoint_two (by omega) (by omega), ofNat_eq (b := b) (by omega),
    ofNat_eq (b := b1) (by omega)]

lemma encodePoint_of_three (hb : 0xE0 ≤ b.toNat ∧ b.toNat ≤ 0xEF)
    (hb1 : isSecond b.toNat b1 = true) (hb2 : isTail b2 = true)
    (hc : c.val = (b.toNat - 0xE0) * 4096 + (b1.toNat - 0x80) * 64 + (b2.toNat - 0x80)) :
    c.IsScalar ∧ encodePoint c = some [b, b1, b2] := by
  -- the bounds behind 0xE0 and 0xED keep out short values and surrogates
  obtain ⟨⟨hlow, hhigh⟩, hshort, hsurrogate, -⟩ := isSecond_iff.mp hb1
  have htail := isTail_iff.mp hb2
  have hscalar : c.IsScalar := by
    unfold CodePoint.IsScalar
    omega
  refine ⟨hscalar, ?_⟩
  rw [encodePoint_three (by omega) (by omega) hscalar, ofNat_eq (b := b) (by omega),
    ofNat_eq (b := b1) (by omega), ofNat_eq (b := b2) (by omega)]

lemma encodePoint_of_four (hb : 0xF0 ≤ b.toNat ∧ b.toNat ≤ 0xF4)
    (hb1 : isSecond b.toNat b1 = true) (hb2 : isTail b2 = true) (hb3 : isTail b3 = true)
    (hc : c.val = (b.toNat - 0xF0) * 262144 + (b1.toNat - 0x80) * 4096 + (b2.toNat - 0x80) * 64 +
      (b3.toNat - 0x80)) :
    c.IsScalar ∧ encodePoint c = some [b, b1, b2, b3] := by
  -- the bounds behind 0xF0 and 0xF4 keep out short values and those past the last
  obtain ⟨⟨hlow, hhigh⟩, -, -, hshort, hlast⟩ := isSecond_iff.mp hb1
  have htail2 := isTail_iff.mp hb2
  have htail3 := isTail_iff.mp hb3
  refine ⟨.inr (by omega), ?_⟩
  rw [encodePoint_four (by omega) (by omega), ofNat_eq (b := b) (by omega),
    ofNat_eq (b := b1) (by omega), ofNat_eq (b := b2) (by omega), ofNat_eq (b := b3) (by omega)]

end Sequence

/-- What a sequence says: its code point is a scalar value, which is written as these bytes. -/
lemma sequence?_eq_some {b : UInt8} {rest : Bytes} {c : CodePoint} {n : Nat}
    (h : sequence? b rest = some (c, n)) :
    c.IsScalar ∧ n ≤ rest.length ∧ encodePoint c = some (b :: rest.take n) := by
  unfold sequence? at h
  dsimp only at h
  split_ifs at h with h1 h2 h3 h4
  · obtain ⟨rfl, rfl⟩ := Prod.mk.inj (Option.some.inj h)
    exact ⟨.inl (show b.toNat < _ by omega), Nat.zero_le _,
      (encodePoint_one h1).trans (by rw [ofNat_eq rfl]; rfl)⟩
  · split at h
    · next b1 rest =>
      obtain ⟨hs, h⟩ := Option.ite_none_right_eq_some.mp h
      obtain ⟨rfl, rfl⟩ := Prod.mk.inj (Option.some.inj h)
      obtain ⟨hscalar, henc⟩ := encodePoint_of_two h2 hs rfl
      exact ⟨hscalar, by simp, henc⟩
    · cases h
  · split at h
    · next b1 b2 rest =>
      obtain ⟨hs, h⟩ := Option.ite_none_right_eq_some.mp h
      obtain ⟨rfl, rfl⟩ := Prod.mk.inj (Option.some.inj h)
      rw [Bool.and_eq_true] at hs
      obtain ⟨hscalar, henc⟩ := encodePoint_of_three h3 hs.1 hs.2 rfl
      exact ⟨hscalar, by simp, henc⟩
    · cases h
  · split at h
    · next b1 b2 b3 rest =>
      obtain ⟨hs, h⟩ := Option.ite_none_right_eq_some.mp h
      obtain ⟨rfl, rfl⟩ := Prod.mk.inj (Option.some.inj h)
      rw [Bool.and_eq_true, Bool.and_eq_true] at hs
      obtain ⟨hscalar, henc⟩ := encodePoint_of_four h4 hs.1.1 hs.1.2 hs.2 rfl
      exact ⟨hscalar, by simp, henc⟩
    · cases h

/-! ### The sequence of a code point

A scalar value is read from the bytes that it is written as, whatever follows them.
-/

lemma toNat_tail (n : Nat) : (UInt8.ofNat (0x80 + n % 64)).toNat = 0x80 + n % 64 :=
  toNat_ofNat (by omega)

lemma isTail_tail (n : Nat) : isTail (UInt8.ofNat (0x80 + n % 64)) = true :=
  isTail_iff.mpr (by rw [toNat_tail]; omega)

section Value

variable {n : Nat}

lemma sequence?_one (h : n < 0x80) (rest : Bytes) :
    sequence? (UInt8.ofNat n) rest = some (⟨n⟩, 0) := by
  unfold sequence?
  simp only [toNat_ofNat (show n < 256 by omega), if_pos h]

lemma sequence?_two (h1 : 0x80 ≤ n) (h2 : n < 0x800) (rest : Bytes) :
    sequence? (UInt8.ofNat (0xC0 + n / 64)) (UInt8.ofNat (0x80 + n % 64) :: rest) =
      some (⟨n⟩, 1) := by
  have hb : (UInt8.ofNat (0xC0 + n / 64)).toNat = 0xC0 + n / 64 := toNat_ofNat (by omega)
  have hs : isSecond (0xC0 + n / 64) (UInt8.ofNat (0x80 + n % 64)) = true :=
    isSecond_iff.mpr (by rw [toNat_tail]; omega)
  have hv : (0xC0 + n / 64 - 0xC0) * 64 + (0x80 + n % 64 - 0x80) = n := by omega
  simp only [sequence?, hb, toNat_tail, hs, if_true]
  rw [if_neg (by omega), if_pos (by omega), hv]

lemma sequence?_three (h2 : 0x800 ≤ n) (h3 : n < 0x10000) (h : n < 0xD800 ∨ 0xE000 ≤ n)
    (rest : Bytes) :
    sequence? (UInt8.ofNat (0xE0 + n / 4096))
      (UInt8.ofNat (0x80 + n / 64 % 64) :: UInt8.ofNat (0x80 + n % 64) :: rest) =
        some (⟨n⟩, 2) := by
  have hb : (UInt8.ofNat (0xE0 + n / 4096)).toNat = 0xE0 + n / 4096 := toNat_ofNat (by omega)
  have hs : isSecond (0xE0 + n / 4096) (UInt8.ofNat (0x80 + n / 64 % 64)) = true :=
    isSecond_iff.mpr (by rw [toNat_tail]; omega)
  have hv : (0xE0 + n / 4096 - 0xE0) * 4096 + (0x80 + n / 64 % 64 - 0x80) * 64 +
      (0x80 + n % 64 - 0x80) = n := by omega
  simp only [sequence?, hb, toNat_tail, hs, isTail_tail, Bool.and_self, if_true]
  rw [if_neg (by omega), if_neg (by omega), if_pos (by omega), hv]

lemma sequence?_four (h3 : 0x10000 ≤ n) (hmax : n < 0x110000) (rest : Bytes) :
    sequence? (UInt8.ofNat (0xF0 + n / 262144))
      (UInt8.ofNat (0x80 + n / 4096 % 64) :: UInt8.ofNat (0x80 + n / 64 % 64) ::
        UInt8.ofNat (0x80 + n % 64) :: rest) = some (⟨n⟩, 3) := by
  have hb : (UInt8.ofNat (0xF0 + n / 262144)).toNat = 0xF0 + n / 262144 := toNat_ofNat (by omega)
  have hs : isSecond (0xF0 + n / 262144) (UInt8.ofNat (0x80 + n / 4096 % 64)) = true :=
    isSecond_iff.mpr (by rw [toNat_tail]; omega)
  have hv : (0xF0 + n / 262144 - 0xF0) * 262144 + (0x80 + n / 4096 % 64 - 0x80) * 4096 +
      (0x80 + n / 64 % 64 - 0x80) * 64 + (0x80 + n % 64 - 0x80) = n := by omega
  simp only [sequence?, hb, toNat_tail, hs, isTail_tail, Bool.and_self, if_true]
  rw [if_neg (by omega), if_neg (by omega), if_neg (by omega), if_pos (by omega), hv]

end Value

lemma exists_sequence? {c : CodePoint} (h : c.IsScalar) :
    ∃ b bs, encodePoint c = some (b :: bs) ∧
      ∀ rest, sequence? b (bs ++ rest) = some (c, bs.length) := by
  have hvalue : c.val < 0xD800 ∨ 0xE000 ≤ c.val ∧ c.val < 0x110000 := h
  rcases Nat.lt_or_ge c.val 0x80 with h1 | h1
  · exact ⟨_, _, encodePoint_one h1, sequence?_one h1⟩
  rcases Nat.lt_or_ge c.val 0x800 with h2 | h2
  · exact ⟨_, _, encodePoint_two h1 h2, sequence?_two h1 h2⟩
  rcases Nat.lt_or_ge c.val 0x10000 with h3 | h3
  · exact ⟨_, _, encodePoint_three h2 h3 h, sequence?_three h2 h3 (by omega)⟩
  · exact ⟨_, _, encodePoint_four h3 (by omega), sequence?_four h3 (by omega)⟩

/-! ### Reading on -/

lemma decodeFrom_eq (skip : Nat) (bs : Bytes) : decodeFrom skip bs = decode (bs.drop skip) := by
  induction bs generalizing skip with
  | nil => cases skip <;> rfl
  | cons b rest ih =>
    cases skip with
    | zero => rfl
    | succ skip => exact ih skip

lemma decodeLossyFrom_eq (skip : Nat) (bs : Bytes) :
    decodeLossyFrom skip bs = decodeLossy (bs.drop skip) := by
  induction bs generalizing skip with
  | nil => cases skip <;> rfl
  | cons b rest ih =>
    cases skip with
    | zero => rfl
    | succ skip => exact ih skip

lemma decode_cons_of_some {b : UInt8} {rest : Bytes} {c : CodePoint} {n : Nat}
    (h : sequence? b rest = some (c, n)) : decode (b :: rest) = c :: decode (rest.drop n) := by
  rw [decode, decodeFrom, h, ← decodeFrom_eq]

lemma decode_cons_of_none {b : UInt8} {rest : Bytes} (h : sequence? b rest = none) :
    decode (b :: rest) = stray b :: decode rest := by
  rw [decode, decodeFrom, h]
  rfl

lemma decodeLossy_cons_of_some {b : UInt8} {rest : Bytes} {c : CodePoint} {n : Nat}
    (h : sequence? b rest = some (c, n)) :
    decodeLossy (b :: rest) = c :: decodeLossy (rest.drop n) := by
  rw [decodeLossy, decodeLossyFrom, h, ← decodeLossyFrom_eq]

lemma decodeLossy_cons_of_none {b : UInt8} {rest : Bytes} (h : sequence? b rest = none) :
    decodeLossy (b :: rest) = ⟨0xFFFD⟩ :: decodeLossy (rest.drop (brokenTail b rest)) := by
  rw [decodeLossy, decodeLossyFrom, h, ← decodeLossyFrom_eq]

lemma le_toNat_of_sequence?_eq_none {b : UInt8} {rest : Bytes} (h : sequence? b rest = none) :
    0x80 ≤ b.toNat := by
  by_contra hb
  simp [sequence?, show b.toNat < 0x80 by omega] at h

/-! ### Encoding what was decoded -/

lemma encode_cons {c : CodePoint} {t : Text} {b bs : Bytes} (hc : encodePoint c = some b)
    (ht : encode t = some bs) : encode (c :: t) = some (b ++ bs) := by
  rw [encode, hc, ht]
  rfl

lemma isSome_encode_iff {t : Text} :
    (encode t).isSome = true ↔ ∀ c ∈ t, (encodePoint c).isSome = true := by
  induction t with
  | nil => simp [encode]
  | cons c t ih =>
    rw [List.forall_mem_cons, ← ih, encode]
    cases encodePoint c <;> cases encode t <;> simp

lemma encodePoint_stray {b : UInt8} (h : 0x80 ≤ b.toNat) : encodePoint (stray b) = some [b] := by
  have hb := b.toNat_lt
  have hval : (stray b).val = 0xDC00 + b.toNat := rfl
  have hstray : (stray b).isStray = true := by
    rw [CodePoint.isStray, CodePoint.within, hval, Bool.and_eq_true, decide_eq_true_iff,
      decide_eq_true_iff]
    omega
  rw [encodePoint, if_neg (by omega), if_neg (by omega), if_pos hstray,
    ofNat_eq (b := b) (by omega)]

/-- **Encoding gives back the bytes that were decoded.** -/
theorem encode_decode (bs : Bytes) : encode (decode bs) = some bs := by
  -- the rest behind a sequence is shorter, but no tail of the list
  induction hlen : bs.length using Nat.strong_induction_on generalizing bs with
  | _ len ih =>
    rcases bs with _ | ⟨b, rest⟩
    · rfl
    have hrest : ∀ n, encode (decode (rest.drop n)) = some (rest.drop n) := fun n =>
      ih _ (by rw [← hlen, List.length_cons, List.length_drop]; omega) _ rfl
    cases h : sequence? b rest with
    | none =>
      rw [decode_cons_of_none h]
      exact encode_cons (encodePoint_stray (le_toNat_of_sequence?_eq_none h)) (hrest 0)
    | some r =>
      obtain ⟨c, n⟩ := r
      rw [decode_cons_of_some h, encode_cons (sequence?_eq_some h).2.2 (hrest n), List.cons_append,
        List.take_append_drop]

/-! ### Decoding what was encoded -/

/-- Some bytes are read as the text. -/
def IsRead (t : Text) : Prop := ∃ bs, decode bs = t

lemma IsRead.encode {t : Text} (h : IsRead t) : ∃ bs, encode t = some bs ∧ decode bs = t := by
  obtain ⟨bs, rfl⟩ := h
  exact ⟨bs, encode_decode bs, rfl⟩

lemma isSome_encodePoint_of_isScalar {c : CodePoint} (h : c.IsScalar) :
    (encodePoint c).isSome = true := by
  obtain ⟨b, bs, hc, -⟩ := exists_sequence? h
  rw [hc]
  rfl

/-- **A text of scalar values is read as it was written.** -/
lemma isRead_of_isScalar {t : Text} (h : ∀ c ∈ t, c.IsScalar) : IsRead t := by
  induction t with
  | nil => exact ⟨[], rfl⟩
  | cons c t ih =>
    obtain ⟨hc, ht⟩ := List.forall_mem_cons.mp h
    obtain ⟨r, rfl⟩ := ih ht
    obtain ⟨b, bs, -, hseq⟩ := exists_sequence? hc
    exact ⟨b :: (bs ++ r), by rw [decode_cons_of_some (hseq r), List.drop_left]⟩

/-! ### Strays -/

lemma decode?_eq_some_iff {bs : Bytes} {t : Text} :
    decode? bs = some t ↔ decode bs = t ∧ ∀ c ∈ t, c.isStray = false := by
  unfold decode?
  dsimp only
  split
  · next hany =>
    obtain ⟨c, hc, hstray⟩ := List.any_eq_true.mp hany
    simp only [reduceCtorEq, false_iff]
    rintro ⟨rfl, hno⟩
    exact absurd hstray (by simp [hno c hc])
  · next hany =>
    rw [Option.some.injEq, iff_self_and]
    rintro rfl
    simpa using hany

lemma isScalar_of_isSome_encodePoint {c : CodePoint} (h : (encodePoint c).isSome = true)
    (hstray : c.isStray = false) : c.IsScalar := by
  unfold encodePoint at h
  dsimp only at h
  unfold CodePoint.IsScalar
  split_ifs at h with h1 h2 h3 h4 h5 h6
  · omega
  · omega
  · cases h3.symm.trans hstray
  · cases h
  · have hno : ¬ (0xD800 ≤ c.val ∧ c.val ≤ 0xDFFF) := by
      simpa [CodePoint.isSurrogate, CodePoint.within] using h4
    omega
  · omega
  · cases h

/-- **What was written for a text is well-formed and read as that text**, just if the text has no
strays. -/
lemma decode?_eq_some_iff_of_encode {t : Text} {bs : Bytes} (h : encode t = some bs) :
    decode? bs = some t ↔ ∀ c ∈ t, c.isStray = false := by
  rw [decode?_eq_some_iff, and_iff_right_iff_imp]
  intro hno
  have hpoints := isSome_encode_iff.mp (Option.isSome_of_eq_some h)
  have hread : IsRead t :=
    isRead_of_isScalar fun c hc => isScalar_of_isSome_encodePoint (hpoints c hc) (hno c hc)
  obtain ⟨b, hb, hdecode⟩ := hread.encode
  rwa [Option.some.inj (h.symm.trans hb)]

/-! ### Zeros -/

lemma zero_eq_ofNat {n : Nat} (h : n < 256) : 0 = UInt8.ofNat n ↔ n = 0 := by
  rw [← UInt8.toNat_inj, toNat_ofNat h]
  exact eq_comm

lemma zero_mem_encodePoint {c : CodePoint} {b : Bytes} (h : encodePoint c = some b) :
    0 ∈ b ↔ c = ⟨0⟩ := by
  obtain ⟨n⟩ := c
  unfold encodePoint at h
  dsimp only at h
  rw [CodePoint.mk.injEq]
  split_ifs at h with h1 h2 h3 h4 h5 h6 <;> cases h
  · rw [List.mem_singleton, zero_eq_ofNat (by omega)]
  · simp only [List.mem_cons, List.not_mem_nil, or_false]
    rw [zero_eq_ofNat (by omega), zero_eq_ofNat (by omega)]
    omega
  · simp only [CodePoint.isStray, CodePoint.within, Bool.and_eq_true, decide_eq_true_eq] at h3
    rw [List.mem_singleton, zero_eq_ofNat (by omega)]
    omega
  · simp only [List.mem_cons, List.not_mem_nil, or_false]
    rw [zero_eq_ofNat (by omega), zero_eq_ofNat (by omega), zero_eq_ofNat (by omega)]
    omega
  · simp only [List.mem_cons, List.not_mem_nil, or_false]
    rw [zero_eq_ofNat (by omega), zero_eq_ofNat (by omega), zero_eq_ofNat (by omega),
      zero_eq_ofNat (by omega)]
    omega

/-- **A text has a zero if its bytes have one.** -/
lemma zero_mem_decode {bs : Bytes} : (⟨0⟩ : CodePoint) ∈ decode bs ↔ 0 ∈ bs := by
  suffices h : ∀ t {bs : Bytes}, encode t = some bs → ((⟨0⟩ : CodePoint) ∈ t ↔ 0 ∈ bs) from
    h _ (encode_decode bs)
  intro t
  induction t with
  | nil =>
    rintro bs h
    obtain rfl := Option.some.inj h
    simp
  | cons c t ih =>
    rintro bs h
    obtain ⟨b, hb, h⟩ := Option.bind_eq_some_iff.mp h
    obtain ⟨rest, hrest, h⟩ := Option.bind_eq_some_iff.mp h
    obtain rfl := Option.some.inj h
    rw [List.mem_cons, List.mem_append, ih hrest, zero_mem_encodePoint hb]
    exact or_congr_left eq_comm

/-! ### Line feeds -/

@[simp] lemma isSecond_newline (n : Nat) : isSecond n 10 = false := by
  rw [Bool.eq_false_iff, Ne, isSecond_iff]
  exact fun h => absurd h.1.1 (by decide)

@[simp] lemma isTail_newline : isTail 10 = false := by decide

lemma sequence?_append_newline (b : UInt8) (a r : Bytes) :
    sequence? b (a ++ 10 :: r) = sequence? b a := by
  unfold sequence?
  rcases a with _ | ⟨b1, _ | ⟨b2, _ | ⟨b3, a⟩⟩⟩ <;> rcases r with _ | ⟨r1, _ | ⟨r2, r⟩⟩ <;> simp

lemma brokenTail_append_newline (b : UInt8) (a r : Bytes) :
    brokenTail b (a ++ 10 :: r) = brokenTail b a := by
  unfold brokenTail
  rcases a with _ | ⟨b1, _ | ⟨b2, a⟩⟩ <;> simp

lemma brokenTail_le (b : UInt8) (rest : Bytes) : brokenTail b rest ≤ rest.length := by
  unfold brokenTail
  dsimp only
  rcases rest with _ | ⟨b1, _ | ⟨b2, a⟩⟩ <;> simp <;> split_ifs <;> simp

lemma drop_append_newline {a : Bytes} {n : Nat} (h : n ≤ a.length) (r : Bytes) :
    (a ++ 10 :: r).drop n = a.drop n ++ 10 :: r := List.drop_append_of_le_length h

/-- **A text is read line by line.** -/
theorem decode_append_newline (a r : Bytes) :
    decode (a ++ 10 :: r) = decode a ++ CodePoint.ofChar '\n' :: decode r := by
  induction hlen : a.length using Nat.strong_induction_on generalizing a with
  | _ len ih =>
    rcases a with _ | ⟨b, a⟩
    · rfl
    have hrest : ∀ n, decode (a.drop n ++ 10 :: r) =
        decode (a.drop n) ++ CodePoint.ofChar '\n' :: decode r := fun n =>
      ih _ (by rw [← hlen, List.length_cons, List.length_drop]; omega) _ rfl
    have happ := sequence?_append_newline b a r
    cases h : sequence? b a with
    | none =>
      rw [List.cons_append, decode_cons_of_none (happ.trans h), decode_cons_of_none h]
      exact congrArg _ (hrest 0)
    | some q =>
      obtain ⟨c, n⟩ := q
      rw [List.cons_append, decode_cons_of_some (happ.trans h), decode_cons_of_some h,
        drop_append_newline (sequence?_eq_some h).2.1, hrest, List.cons_append]

/-- So it is when broken sequences are replaced. -/
theorem decodeLossy_append_newline (a r : Bytes) :
    decodeLossy (a ++ 10 :: r) = decodeLossy a ++ CodePoint.ofChar '\n' :: decodeLossy r := by
  induction hlen : a.length using Nat.strong_induction_on generalizing a with
  | _ len ih =>
    rcases a with _ | ⟨b, a⟩
    · rfl
    have hrest : ∀ n, decodeLossy (a.drop n ++ 10 :: r) =
        decodeLossy (a.drop n) ++ CodePoint.ofChar '\n' :: decodeLossy r := fun n =>
      ih _ (by rw [← hlen, List.length_cons, List.length_drop]; omega) _ rfl
    have happ := sequence?_append_newline b a r
    cases h : sequence? b a with
    | none =>
      rw [List.cons_append, decodeLossy_cons_of_none (happ.trans h), decodeLossy_cons_of_none h,
        brokenTail_append_newline, drop_append_newline (brokenTail_le b a), hrest, List.cons_append]
    | some q =>
      obtain ⟨c, n⟩ := q
      rw [List.cons_append, decodeLossy_cons_of_some (happ.trans h), decodeLossy_cons_of_some h,
        drop_append_newline (sequence?_eq_some h).2.1, hrest, List.cons_append]

lemma exists_of_decode_eq_cons {bs : Bytes} {c : CodePoint} {t : Text}
    (h : decode bs = c :: t) (hc : c.val < 0x80) :
    ∃ r, bs = UInt8.ofNat c.val :: r ∧ decode r = t ∧ decodeLossy bs = c :: decodeLossy r := by
  rcases bs with _ | ⟨b, rest⟩
  · cases h
  cases hs : sequence? b rest with
  | none =>
    rw [decode_cons_of_none hs] at h
    obtain ⟨rfl, -⟩ := List.cons.inj h
    exact absurd hc (by simp only [stray]; omega)
  | some q =>
    obtain ⟨c', n⟩ := q
    have hlossy := decodeLossy_cons_of_some hs
    rw [decode_cons_of_some hs] at h
    obtain ⟨rfl, rfl⟩ := List.cons.inj h
    have henc := (sequence?_eq_some hs).2.2
    rw [encodePoint_one hc, Option.some.injEq, List.cons.injEq] at henc
    obtain ⟨rfl, htake⟩ := henc
    have hn : n = 0 := by
      have := congrArg List.length htake
      have := (sequence?_eq_some hs).2.1
      simp only [List.length_nil, List.length_take] at *
      omega
    subst hn
    exact ⟨rest, rfl, rfl, hlossy⟩

lemma exists_of_decode_eq_append {bs : Bytes} {u v : Text}
    (h : decode bs = u ++ CodePoint.ofChar '\n' :: v) :
    ∃ a r, bs = a ++ 10 :: r ∧ decode a = u ∧ decode r = v := by
  induction u generalizing bs with
  | nil =>
    obtain ⟨r, rfl, hr, -⟩ := exists_of_decode_eq_cons h (by decide)
    exact ⟨[], r, rfl, rfl, hr⟩
  | cons c u ih =>
    rcases bs with _ | ⟨b, rest⟩
    · cases h
    cases hs : sequence? b rest with
    | none =>
      rw [decode_cons_of_none hs] at h
      obtain ⟨rfl, hu⟩ := List.cons.inj h
      obtain ⟨a, r, rfl, rfl, rfl⟩ := ih hu
      rw [sequence?_append_newline] at hs
      exact ⟨b :: a, r, rfl, decode_cons_of_none hs, rfl⟩
    | some q =>
      obtain ⟨c', n⟩ := q
      rw [decode_cons_of_some hs] at h
      obtain ⟨rfl, hu⟩ := List.cons.inj h
      obtain ⟨a, r, hrest, rfl, rfl⟩ := ih hu
      have hsplit : rest = (rest.take n ++ a) ++ 10 :: r := by
        rw [List.append_assoc, ← hrest, List.take_append_drop]
      have hlen : (rest.take n).length = n := List.length_take_of_le (sequence?_eq_some hs).2.1
      refine ⟨b :: (rest.take n ++ a), r, congrArg (b :: ·) hsplit, ?_, rfl⟩
      rw [hsplit, sequence?_append_newline] at hs
      rw [decode_cons_of_some hs, List.drop_left' hlen]

lemma isRead_append_newline {u v : Text} :
    IsRead (u ++ CodePoint.ofChar '\n' :: v) ↔ IsRead u ∧ IsRead v := by
  constructor
  · rintro ⟨bs, h⟩
    obtain ⟨a, r, -, ha, hr⟩ := exists_of_decode_eq_append h
    exact ⟨⟨a, ha⟩, ⟨r, hr⟩⟩
  · rintro ⟨⟨a, rfl⟩, ⟨r, rfl⟩⟩
    exact ⟨a ++ 10 :: r, decode_append_newline a r⟩

lemma isRead_join {ls : List Text} (hne : ls ≠ []) (ended : Bool) :
    IsRead (Lines.join ls ended) ↔ ∀ l ∈ ls, IsRead l := by
  have hjoin : IsRead (Text.joinWith '\n' ls) ↔ ∀ l ∈ ls, IsRead l := by
    induction ls with
    | nil => exact absurd rfl hne
    | cons l ls ih =>
      rcases ls with _ | ⟨m, ls⟩
      · simp
      · rw [Text.joinWith_cons _ _ (by simp), isRead_append_newline, ih (by simp)]
        exact List.forall_mem_cons.symm
  unfold Lines.join
  cases ended with
  | false => exact hjoin
  | true =>
    have hnil : IsRead [] := ⟨[], rfl⟩
    exact (isRead_append_newline.trans (and_iff_left hnil)).trans hjoin

end Utf8

end Letterhead
