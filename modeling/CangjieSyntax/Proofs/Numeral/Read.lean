import CangjieSyntax.Proofs.Numeral.Grammar

/-!
# Numerals as they are read

Each part of a numeral is read up to where it ends: what is read is a word of its language, and a
word is read as a whole if what stands behind it does not belong to it. So a number is read up to the
width behind it, and it is of the sort that its language says.
-/

namespace CangjieSyntax

variable {src : Source} {p q : UInt8 → Bool} {chars others digits marks : String}
  {pos start stop : Nat} {c : Char} {cs word rest : List Char}

/-! ## Classes of bytes -/

/-- A class of ASCII bytes, by their characters. -/
structure Byte.IsClass (p : UInt8 → Bool) (chars : String) : Prop where
  iff : ∀ b, p b ↔ ∃ c ∈ chars.toList, c.toNat = b.toNat
  small : chars.toList.all (·.toNat < 128)

/-- None of some characters stands in front. -/
def Numeral.Ends (chars : String) (rest : List Char) : Prop :=
  ∀ c ∈ rest.head?, c ∉ chars.toList

/-- Texts have no character in common if a computation over the first of them says so. -/
lemma Numeral.not_mem_of_all (h : chars.toList.all (· ∉ others.toList)) (hc : c ∈ chars.toList) :
    c ∉ others.toList :=
  of_decide_eq_true (List.all_eq_true.1 h c hc)

namespace Byte.IsClass

lemma toNat_lt (h : IsClass p chars) (hc : c ∈ chars.toList) : c.toNat < 128 :=
  of_decide_eq_true (List.all_eq_true.1 h.small c hc)

lemma utf8Size_eq_one (h : IsClass p chars) (hc : c ∈ chars.toList) : c.utf8Size = 1 :=
  Char.utf8Size_eq_one_iff.2 (UInt32.le_iff_toNat_le.2 (Nat.le_of_lt_succ (h.toNat_lt hc)))

lemma ascii (h : IsClass p chars) {b : UInt8} (hb : p b) : b < 0x80 := by
  obtain ⟨c, hc, hcb⟩ := (h.iff b).1 hb
  exact UInt8.lt_iff_toNat_lt.2 (hcb ▸ h.toNat_lt hc)

/-- The first byte of a character is in a class if the character is one of the class. -/
lemma first (h : IsClass p chars) {b : UInt8} {bytes : List UInt8}
    (hb : String.utf8EncodeChar c = b :: bytes) : p b ↔ c ∈ chars.toList := by
  by_cases hc : c.utf8Size = 1
  · rw [String.utf8EncodeChar_eq_singleton hc] at hb
    obtain ⟨rfl, -⟩ := List.cons.inj hb
    have hbyte : c.val.toUInt8.toNat = c.toNat := by
      rw [Char.utf8Size_eq_one_iff, UInt32.le_iff_toNat_le] at hc
      exact Nat.mod_eq_of_lt (Nat.lt_of_le_of_lt hc (by decide))
    rw [h.iff, hbyte]
    exact ⟨fun ⟨d, hd, hdc⟩ => Char.toNat_inj.1 hdc ▸ hd, fun hmem => ⟨c, hmem, rfl⟩⟩
  · have hlarge : 0x80 ≤ b := not_ascii_of_mem_utf8EncodeChar hc (hb ▸ List.mem_cons_self)
    exact iff_of_false (fun hp => UInt8.not_lt.2 hlarge (h.ascii hp))
      fun hmem => hc (h.utf8Size_eq_one hmem)

/-- Where a byte of a class stands, so does one of its characters. -/
lemma byteIs_iff (h : IsClass p chars) (hcs : src.Ahead pos cs) :
    src.byteIs pos p ↔ ∃ c ∈ cs.head?, c ∈ chars.toList := by
  have hbyte := hcs.byteAt 0
  rw [Nat.add_zero] at hbyte
  cases cs with
  | nil =>
    rw [Source.byteIs, hbyte]
    simp [Source.encoded]
  | cons c rest =>
    obtain ⟨b, bytes, hb⟩ := utf8EncodeChar_eq_cons c
    rw [Source.encoded_cons, hb] at hbyte
    have hbyte : src.byteAt pos = some b := hbyte
    rw [Source.byteIs, hbyte, Option.any_some, h.first hb]
    simp

lemma byteIs_of_ends (h : IsClass p chars) (hcs : src.Ahead pos cs)
    (hends : Numeral.Ends chars cs) :
    src.byteIs pos p = false := by
  rw [Bool.eq_false_iff, Ne, h.byteIs_iff hcs]
  rintro ⟨c, hc, hmem⟩
  exact hends c hc hmem

/-- A run of the class is read up to where it ends. -/
lemma skipWhile_eq (h : IsClass p chars) (hcs : src.Ahead pos (word ++ rest))
    (hword : ∀ c ∈ word, c ∈ chars.toList) (hends : Numeral.Ends chars rest) :
    src.skipWhile p pos = pos + word.utf8Encode.size := by
  rw [Source.size_utf8Encode]
  refine hcs.skipWhile_eq (fun b hb => ?_) fun b hb => ?_
  · obtain ⟨c, hc, hb⟩ := List.mem_flatMap.1 hb
    rw [String.utf8EncodeChar_eq_singleton (h.utf8Size_eq_one (hword c hc)), List.mem_singleton] at hb
    rw [hb]
    exact (h.first (String.utf8EncodeChar_eq_singleton (h.utf8Size_eq_one (hword c hc)))).2
      (hword c hc)
  · cases rest with
    | nil => exact nomatch hb
    | cons c rest =>
      obtain ⟨d, bytes, hd⟩ := utf8EncodeChar_eq_cons c
      rw [Source.encoded_cons, hd] at hb
      cases hb
      rw [Bool.eq_false_iff, Ne, h.first hd]
      exact hends c rfl

/-- A run of the class, and where it ends. -/
lemma exists_skipWhile (h : IsClass p chars) (hcs : src.Ahead pos cs) :
    ∃ word rest, cs = word ++ rest ∧ (∀ c ∈ word, c ∈ chars.toList) ∧ Numeral.Ends chars rest
      ∧ src.skipWhile p pos = pos + word.utf8Encode.size := by
  have hsplit := List.takeWhile_append_dropWhile (p := (· ∈ chars.toList)) (l := cs)
  have hword : ∀ c ∈ cs.takeWhile (· ∈ chars.toList), c ∈ chars.toList :=
    fun c hc => of_decide_eq_true (List.all_eq_true.1 List.all_takeWhile c hc)
  have hends : Numeral.Ends chars (cs.dropWhile (· ∈ chars.toList)) := by
    intro c hc
    have hnot := List.head?_dropWhile_not (· ∈ chars.toList) cs
    rw [Option.mem_def.1 hc] at hnot
    simpa using hnot
  exact ⟨_, _, hsplit.symm, hword, hends, h.skipWhile_eq (hsplit.symm ▸ hcs) hword hends⟩

/-- The class of one character. -/
lemma single (c : Char) (hc : c.toNat < 128) :
    IsClass (· == UInt8.ofNat c.toNat) (String.singleton c) where
  iff b := by
    have hbyte : (UInt8.ofNat c.toNat).toNat = c.toNat :=
      Nat.mod_eq_of_lt (Nat.lt_of_lt_of_le hc (by decide))
    rw [beq_iff_eq, ← UInt8.toNat_inj, hbyte, String.toList_singleton]
    simp [eq_comm]
  small := by simpa using hc

/-- Two classes together. -/
lemma or (h : IsClass p chars) (h' : IsClass q others) :
    IsClass (fun b => p b || q b) (chars ++ others) where
  iff b := by simp [h.iff, h'.iff, or_and_right, exists_or]
  small := by rw [String.toList_append, List.all_append, h.small, h'.small]; rfl

end Byte.IsClass

namespace Numeral

lemma isClass_digit : Byte.IsClass Byte.isDigit decimal where
  iff b := by
    simp [Byte.isDigit, decimal, UInt8.le_iff_toNat_le]
    omega
  small := by decide

lemma isClass_separator : Byte.IsClass isSeparator "_" :=
  .single '_' (by decide)

lemma isClass_point : Byte.IsClass (· == 0x2E) "." :=
  .single '.' (by decide)

lemma isClass_zero : Byte.IsClass (· == 0x30) "0" :=
  .single '0' (by decide)

lemma isClass_sign : Byte.IsClass isSign "+-" :=
  .or (.single '+' (by decide)) (.single '-' (by decide))

lemma isClass_decimalExponent : Byte.IsClass isDecimalExponent "eE" :=
  .or (.single 'e' (by decide)) (.single 'E' (by decide))

lemma isClass_binaryExponent : Byte.IsClass isBinaryExponent "pP" :=
  .or (.single 'p' (by decide)) (.single 'P' (by decide))

lemma Base.isClass_digit (base : Base) : Byte.IsClass base.isDigit base.digits where
  iff b := by
    cases base <;>
      simp [isDigit, digits, Byte.isHexDigit, Byte.isDigit, Byte.isBinaryDigit, Byte.isOctalDigit,
        UInt8.le_iff_toNat_le, ← UInt8.toNat_inj] <;> omega
  small := by cases base <;> decide

lemma Base.isClass_letter (base : Base) :
    Byte.IsClass (fun b => Base.ofByte? b == some base) base.letters where
  iff b := by
    cases base <;> simp [ofByte?, letters, ← UInt8.toNat_inj] <;> split_ifs <;> simp <;> omega
  small := by cases base <;> decide

/-! ## Parts of a numeral -/

section

variable {digit mark : UInt8 → Bool}

lemma holds_oneOf (h : Byte.IsClass p chars) (hp : src.byteIs pos p) :
    src.Holds (oneOf chars) pos (pos + 1) := by
  obtain ⟨b, hb, hpb⟩ := Source.byteIs_iff.1 hp
  obtain ⟨cs, hcs⟩ := Source.isBoundary_iff.1 (Source.isBoundary_of_ascii hb (h.ascii hpb))
  obtain ⟨c, hc, hmem⟩ := (h.byteIs_iff hcs).1 hp
  cases cs with
  | nil => exact nomatch hc
  | cons d rest =>
    cases hc
    refine ⟨[c], rest, hcs, ⟨c, hmem, rfl⟩, ?_⟩
    rw [Source.size_utf8Encode_cons, h.utf8Size_eq_one hmem]
    rfl

lemma holds_run (h : Byte.IsClass digit digits) (hpos : src.isBoundary pos) :
    src.Holds (run digits) pos (skipDigits src digit pos) := by
  obtain ⟨cs, hcs⟩ := Source.isBoundary_iff.1 hpos
  obtain ⟨word, rest, rfl, hword, -, hstop⟩ := (h.or isClass_separator).exists_skipWhile hcs
  exact ⟨word, rest, hcs, mem_run.2 hword, hstop⟩

/-- A number starts with a digit. -/
lemma holds_number (h : Byte.IsClass digit digits) (hp : src.byteIs pos digit) :
    src.Holds (number digits) pos (skipDigits src digit pos) := by
  have hfirst := holds_oneOf h hp
  obtain ⟨b, hb, hdigit⟩ := Source.byteIs_iff.1 hp
  have hskip : skipDigits src digit pos = skipDigits src digit (pos + 1) :=
    Source.skipWhile_pos hb (by rw [hdigit, Bool.true_or])
  rw [hskip]
  exact hfirst.mul (holds_run h hfirst.isBoundary_stop)

lemma holds_fraction (h : Byte.IsClass digit digits)
    (hfound : fraction? src digit pos = some stop) :
    src.Holds (fraction digits) pos stop := by
  unfold fraction? at hfound
  split at hfound
  case isTrue hc =>
    rw [Bool.and_eq_true, beq_iff_eq] at hc
    cases hfound
    have hpoint : src.byteIs pos (· == 0x2E) := Source.byteIs_iff.2 ⟨_, hc.1, rfl⟩
    exact (holds_oneOf isClass_point hpoint).mul (holds_number h hc.2)
  case isFalse => exact nomatch hfound

lemma holds_exponent (h : Byte.IsClass mark marks) (hfound : exponent? src mark pos = some stop) :
    src.Holds (exponent marks) pos stop := by
  unfold exponent? at hfound
  dsimp only at hfound
  split at hfound
  case isFalse => exact nomatch hfound
  case isTrue hmark =>
    have hfirst := holds_oneOf h hmark
    have hsign : src.Holds (1 + oneOf "+-") (pos + 1)
        (if src.byteIs (pos + 1) isSign then pos + 2 else pos + 1) := by
      split
      case isTrue hsign =>
        exact (holds_oneOf isClass_sign hsign).mono fun w hw => mem_optional.2 (.inr hw)
      case isFalse =>
        exact (Source.Holds.one hfirst.isBoundary_stop).mono fun w hw => mem_optional.2 (.inl hw)
    generalize (if src.byteIs (pos + 1) isSign then pos + 2 else pos + 1) = front at hfound hsign
    split at hfound
    case isFalse => exact nomatch hfound
    case isTrue hdigit =>
      cases hfound
      exact (hfirst.mul hsign).mul (holds_number isClass_digit hdigit)

/-- A part that may be missing. -/
lemma holds_optional {L : Language Char} {found : Option Nat} (hpos : src.isBoundary pos)
    (h : ∀ stop, found = some stop → src.Holds L pos stop) :
    src.Holds (1 + L) pos (found.getD pos) := by
  cases found with
  | none => exact (Source.Holds.one hpos).mono fun w hw => mem_optional.2 (.inl hw)
  | some stop => exact (h stop rfl).mono fun w hw => mem_optional.2 (.inr hw)

/-! ## Parts that are read as a whole -/

lemma skipDigits_run (h : Byte.IsClass digit digits) (hcs : src.Ahead pos (word ++ rest))
    (hword : word ∈ run digits) (hends : Ends (digits ++ "_") rest) :
    skipDigits src digit pos = pos + word.utf8Encode.size :=
  (h.or isClass_separator).skipWhile_eq hcs (mem_run.1 hword) hends

lemma run_of_number (hword : word ∈ number digits) : word ∈ run digits := by
  obtain ⟨c, cs, rfl, hc, hcs⟩ := mem_number.1 hword
  refine mem_run.2 (List.forall_mem_cons.2 ⟨?_, hcs⟩)
  rw [String.toList_append]
  exact List.mem_append_left _ hc

lemma byteIs_number (h : Byte.IsClass digit digits) (hcs : src.Ahead pos (word ++ rest))
    (hword : word ∈ number digits) : src.byteIs pos digit := by
  obtain ⟨c, cs, rfl, hc, -⟩ := mem_number.1 hword
  exact (h.byteIs_iff hcs).2 ⟨c, rfl, hc⟩

lemma fraction?_eq (h : Byte.IsClass digit digits) (hcs : src.Ahead pos (word ++ rest))
    (hword : word ∈ fraction digits) (hends : Ends (digits ++ "_") rest) :
    fraction? src digit pos = some (pos + word.utf8Encode.size) := by
  obtain ⟨cs, hnumber, rfl⟩ := mem_fraction.1 hword
  have hpoint : src.byteAt pos = some 0x2E := hcs.byteAt 0
  have htail : src.Ahead (pos + 1) (cs ++ rest) := Source.Ahead.tail hcs
  rw [fraction?, hpoint, byteIs_number h htail hnumber,
    skipDigits_run h htail (run_of_number hnumber) hends, Source.size_utf8Encode_cons,
    ← Nat.add_assoc]
  rfl

lemma fraction?_none (hcs : src.Ahead pos cs) (hends : Ends "." cs) :
    fraction? src digit pos = none := by
  have hpoint : (src.byteAt pos == some 0x2E) = false := by
    have hbyte := isClass_point.byteIs_of_ends hcs hends
    rw [Source.byteIs] at hbyte
    cases hb : src.byteAt pos with
    | none => rfl
    | some b =>
      rw [hb] at hbyte
      exact hbyte
  rw [fraction?, hpoint]
  rfl

lemma exponent?_eq (h : Byte.IsClass mark marks) (hcs : src.Ahead pos (word ++ rest))
    (hword : word ∈ exponent marks) (hends : Ends (decimal ++ "_") rest) :
    exponent? src mark pos = some (pos + word.utf8Encode.size) := by
  obtain ⟨c, sign, hc, hsign, cs, hnumber, rfl⟩ := mem_exponent.1 hword
  have hmark : src.byteIs pos mark := (h.byteIs_iff hcs).2 ⟨c, rfl, hc⟩
  have htail : src.Ahead (pos + 1) (sign ++ (cs ++ rest)) := by
    have htail : src.Ahead (pos + c.utf8Size) (sign ++ cs ++ rest) := Source.Ahead.tail hcs
    rwa [h.utf8Size_eq_one hc, List.append_assoc] at htail
  have hdigits : (if src.byteIs (pos + 1) isSign then pos + 2 else pos + 1)
      = pos + 1 + sign.utf8Encode.size := by
    obtain rfl | ⟨d, hd, rfl⟩ := hsign
    · rw [isClass_sign.byteIs_of_ends htail, if_neg Bool.false_ne_true]
      · rfl
      · obtain ⟨d, ds, rfl, hd, -⟩ := mem_number.1 hnumber
        rintro _ ⟨⟩ hsign
        exact not_mem_of_all (by decide) hd hsign
    · rw [(isClass_sign.byteIs_iff htail).2 ⟨d, rfl, hd⟩, if_pos rfl, Source.size_utf8Encode_cons,
        isClass_sign.utf8Size_eq_one hd]
      rfl
  rw [exponent?, if_pos hmark]
  dsimp only
  rw [hdigits, byteIs_number isClass_digit htail.drop hnumber, if_pos rfl,
    skipDigits_run isClass_digit htail.drop (run_of_number hnumber) hends,
    Source.size_utf8Encode_cons, h.utf8Size_eq_one hc, List.utf8Encode_append, ByteArray.size_append,
    Nat.add_assoc, Nat.add_assoc]

lemma exponent?_none (h : Byte.IsClass mark marks) (hcs : src.Ahead pos cs)
    (hends : Ends marks cs) : exponent? src mark pos = none := by
  rw [exponent?, h.byteIs_of_ends hcs hends, if_neg Bool.false_ne_true]

end

/-! ## Numbers without their widths -/

/-- Numbers of one sort, without a width. -/
def bodies (isFloat : Bool) : Language Char :=
  if isFloat then reals else wholes

/-- The widths of one sort. -/
def widths (isFloat : Bool) : List String :=
  if isFloat then floatSuffixes else integerSuffixes

/-- The base that the first two bytes of a number announce. -/
def baseAt (src : Source) (start : Nat) : Option Base :=
  if src.byteAt start == some 0x30 then (src.byteAt (start + 1)).bind Base.ofByte? else none

/-- A number starts at an offset, with a digit or with its point. -/
def Starts (src : Source) (start : Nat) : Prop :=
  src.byteIs start Byte.isDigit ∨ startsWithPoint src start

/-- The number at an offset, from a digit or from its point on. -/
def bodyAt (src : Source) (start : Nat) : Body :=
  if src.byteIs start Byte.isDigit then
    match baseAt src start with
    | some base => readBased src start base
    | none => readDecimal src start
  else
    readPointFirst src start

section

variable {base : Base}

lemma holds_readDecimal (h : src.byteIs start Byte.isDigit) :
    src.Holds (bodies (readDecimal src start).isFloat) start (readDecimal src start).stop := by
  have hwhole := holds_number isClass_digit h
  unfold readDecimal
  dsimp only
  split
  case h_1 stop hfraction =>
    have hfraction := holds_fraction isClass_digit hfraction
    have hexponent := holds_optional hfraction.isBoundary_stop fun _ =>
      holds_exponent isClass_decimalExponent
    exact ((hwhole.mul hfraction).mul hexponent).mono fun w hw => .inl (.inl (.inr hw))
  case h_2 =>
    split
    case h_1 stop hexponent =>
      have hexponent := holds_exponent isClass_decimalExponent hexponent
      exact (hwhole.mul hexponent).mono fun w hw => .inl (.inl (.inl hw))
    case h_2 => exact hwhole.mono fun w hw => .inl hw

lemma holds_readPointFirst (hpoint : src.byteIs start (· == 0x2E))
    (h : src.byteIs (start + 1) Byte.isDigit) :
    src.Holds reals start (readPointFirst src start).stop := by
  have hfraction : src.Holds (fraction decimal) start (skipDigits src Byte.isDigit (start + 1)) :=
    (holds_oneOf isClass_point hpoint).mul (holds_number isClass_digit h)
  have hexponent := holds_optional hfraction.isBoundary_stop fun _ =>
    holds_exponent isClass_decimalExponent
  exact (hfraction.mul hexponent).mono fun w hw => .inl (.inr hw)

/-- A run has a digit if it is longer than the underscores it starts with. -/
lemma holds_runWithDigit (h : src.isBoundary pos)
    (hdigit : (src.skipWhile isSeparator pos != skipDigits src base.isDigit pos) = true) :
    src.Holds (runWithDigit base.digits) pos (skipDigits src base.isDigit pos) := by
  obtain ⟨cs, hcs⟩ := Source.isBoundary_iff.1 h
  obtain ⟨word, rest, rfl, hword, hends, hstop⟩ :=
    (base.isClass_digit.or isClass_separator).exists_skipWhile hcs
  refine ⟨word, rest, hcs, ⟨mem_run.2 hword, ?_⟩, hstop⟩
  by_contra hnone
  have hunderscores : ∀ c ∈ word, c ∈ "_".toList := by
    intro c hc
    have hmem := hword c hc
    rw [String.toList_append, List.mem_append] at hmem
    exact hmem.resolve_left fun hmem => hnone ⟨c, hc, hmem⟩
  have hrest : Ends "_" rest := by
    intro c hc hmem
    refine hends c hc ?_
    rw [String.toList_append]
    exact List.mem_append_right _ hmem
  rw [bne_iff_ne] at hdigit
  exact hdigit ((isClass_separator.skipWhile_eq hcs hunderscores hrest).trans hstop.symm)

lemma holds_baseAt (h : baseAt src start = some base) :
    src.Holds (oneOf "0" * oneOf base.letters) start (start + 2) := by
  unfold baseAt at h
  split at h
  case isTrue hzero =>
    obtain ⟨b, hb, hbase⟩ := Option.bind_eq_some_iff.1 h
    have hzero : src.byteIs start (· == 0x30) := Source.byteIs_iff.2 ⟨_, beq_iff_eq.1 hzero, rfl⟩
    have hletter : src.byteIs (start + 1) fun b => Base.ofByte? b == some base :=
      Source.byteIs_iff.2 ⟨b, hb, beq_iff_eq.2 hbase⟩
    exact (holds_oneOf isClass_zero hzero).mul (holds_oneOf base.isClass_letter hletter)
  case isFalse => exact nomatch h

lemma holds_hexFloat (h : src.isBoundary pos) (hfound : hexFloat? src pos = some stop) :
    src.Holds ((1 + fraction Base.hexadecimal.digits) * exponent "pP") pos stop := by
  have hfraction := holds_optional h fun _ => holds_fraction Base.hexadecimal.isClass_digit
  exact hfraction.mul (holds_exponent isClass_binaryExponent hfound)

lemma holds_readBased (hbase : baseAt src start = some base)
    (herrors : (readBased src start base).errors = []) :
    src.Holds (bodies (readBased src start base).isFloat) start (readBased src start base).stop := by
  have hfront := holds_baseAt hbase
  have hrun := holds_run base.isClass_digit hfront.isBoundary_stop
  have hwhole (h : (src.skipWhile isSeparator (start + 2)
      != skipDigits src base.isDigit (start + 2)) = true) :
      src.Holds wholes start (skipDigits src base.isDigit (start + 2)) :=
    (hfront.mul (holds_runWithDigit hfront.isBoundary_stop h)).mono fun w hw =>
      mem_wholes.2 (.inr ⟨base, hw⟩)
  unfold readBased at herrors ⊢
  dsimp only at herrors ⊢
  split at herrors
  case isTrue hhex =>
    subst hhex
    rw [if_pos rfl]
    split at herrors
    case h_1 stop hfound =>
      have hfloat := (hfront.mul hrun).mul (holds_hexFloat hrun.isBoundary_stop hfound)
      exact hfloat.mono fun w hw => .inr (mul_assoc _ _ (exponent "pP") ▸ hw)
    case h_2 =>
      split at herrors
      case isTrue hdigit => exact hwhole hdigit
      case isFalse => exact nomatch herrors
  case isFalse hother =>
    rw [if_neg hother]
    split at herrors
    case isTrue => exact absurd herrors (by simp)
    case isFalse hends =>
      rw [if_neg hends]
      split at herrors
      case isTrue hdigit => exact hwhole hdigit
      case isFalse => exact nomatch herrors

/-- A number that is read without an error is one of the grammar. -/
lemma holds_bodyAt (h : Starts src start) (herrors : (bodyAt src start).errors = []) :
    src.Holds (bodies (bodyAt src start).isFloat) start (bodyAt src start).stop := by
  unfold bodyAt at herrors ⊢
  split at herrors
  case isTrue hdigit =>
    rw [if_pos hdigit]
    split at herrors
    case h_1 base hbase => exact holds_readBased hbase herrors
    case h_2 => exact holds_readDecimal hdigit
  case isFalse hdigit =>
    rw [if_neg hdigit]
    have hpoint := h.resolve_left hdigit
    rw [startsWithPoint, Bool.and_eq_true, Bool.and_eq_true, beq_iff_eq] at hpoint
    exact holds_readPointFirst (Source.byteIs_iff.2 ⟨_, hpoint.1.1, rfl⟩) hpoint.1.2

end

/-! ## Numbers that are read as a whole -/

section

variable {mark digit : UInt8 → Bool} {base : Base} {isFloat : Bool}
  {whole part power : List Char}

lemma ends_fraction (h : part ∈ fraction digits) (hpoint : '.' ∉ chars.toList) :
    Ends chars (part ++ rest) := by
  obtain ⟨cs, -, rfl⟩ := mem_fraction.1 h
  rintro _ ⟨⟩
  exact hpoint

lemma ends_exponent (h : power ∈ exponent marks) (hmarks : marks.toList.all (· ∉ chars.toList)) :
    Ends chars (power ++ rest) := by
  obtain ⟨c, sign, hc, -, cs, -, rfl⟩ := mem_exponent.1 h
  rintro _ ⟨⟩
  exact not_mem_of_all hmarks hc

/-- A part that may be missing ends what is in front of it, if what is behind it does. -/
lemma ends_optional {L : Language Char} (h : part ∈ 1 + L)
    (hpart : part ∈ L → Ends chars (part ++ rest)) (hrest : Ends chars rest) :
    Ends chars (part ++ rest) := by
  obtain rfl | hmem := mem_optional.1 h
  · exact hrest
  · exact hpart hmem

/-- Nothing but a width stands behind a number, so the number ends in front of it. -/
lemma ends_width (h : rest ∈ 1 + wordOf (widths isFloat))
    (hfirst : ∀ w ∈ widths isFloat, w.toList.head?.all (· ∉ chars.toList)) : Ends chars rest := by
  obtain rfl | hmem := mem_optional.1 h
  · exact nofun
  · have hall := hfirst _ hmem
    rw [String.toList_ofList] at hall
    exact fun c hc => of_decide_eq_true ((Option.all_eq_true ..).1 hall c hc)

lemma fraction?_getD_eq (h : Byte.IsClass digit digits) (hcs : src.Ahead pos (part ++ rest))
    (hpart : part ∈ 1 + fraction digits) (hends : Ends (digits ++ "_") rest)
    (hpoint : Ends "." rest) :
    (fraction? src digit pos).getD pos = pos + part.utf8Encode.size := by
  obtain rfl | hmem := mem_optional.1 hpart
  · rw [fraction?_none hcs hpoint]
    rfl
  · rw [fraction?_eq h hcs hmem hends, Option.getD_some]

lemma exponent?_getD_eq (h : Byte.IsClass mark marks) (hcs : src.Ahead pos (power ++ rest))
    (hpower : power ∈ 1 + exponent marks) (hends : Ends (decimal ++ "_") rest)
    (hmarks : Ends marks rest) :
    (exponent? src mark pos).getD pos = pos + power.utf8Encode.size := by
  obtain rfl | hmem := mem_optional.1 hpower
  · rw [exponent?_none h hcs hmarks]
    rfl
  · rw [exponent?_eq h hcs hmem hends, Option.getD_some]

lemma size_append (cs ds : List Char) (pos : Nat) :
    pos + (cs ++ ds).utf8Encode.size = pos + cs.utf8Encode.size + ds.utf8Encode.size := by
  rw [List.utf8Encode_append, ByteArray.size_append, Nat.add_assoc]

lemma readDecimal_whole (hcs : src.Ahead start (word ++ rest)) (hword : word ∈ number decimal)
    (hrest : rest ∈ 1 + wordOf (widths false)) :
    readDecimal src start = { stop := start + word.utf8Encode.size, isFloat := false } := by
  have hends : Ends (decimal ++ "_") rest := ends_width hrest (by decide)
  rw [readDecimal, skipDigits_run isClass_digit hcs (run_of_number hword) hends]
  rw [fraction?_none hcs.drop (ends_width hrest (by decide)),
    exponent?_none isClass_decimalExponent hcs.drop (ends_width hrest (by decide))]

lemma readDecimal_exponent (hcs : src.Ahead start (whole ++ (power ++ rest)))
    (hwhole : whole ∈ number decimal) (hpower : power ∈ exponent "eE")
    (hrest : rest ∈ 1 + wordOf (widths true)) :
    readDecimal src start
      = { stop := start + (whole ++ power).utf8Encode.size, isFloat := true } := by
  rw [readDecimal, skipDigits_run isClass_digit hcs (run_of_number hwhole)
    (ends_exponent hpower (by decide))]
  rw [fraction?_none hcs.drop (ends_exponent hpower (by decide)),
    exponent?_eq isClass_decimalExponent hcs.drop hpower (ends_width hrest (by decide)),
    size_append]

lemma readDecimal_fraction (hcs : src.Ahead start (whole ++ (part ++ (power ++ rest))))
    (hwhole : whole ∈ number decimal) (hpart : part ∈ fraction decimal)
    (hpower : power ∈ 1 + exponent "eE") (hrest : rest ∈ 1 + wordOf (widths true)) :
    readDecimal src start
      = { stop := start + (whole ++ part ++ power).utf8Encode.size, isFloat := true } := by
  have hends : Ends (decimal ++ "_") rest := ends_width hrest (by decide)
  have hpartEnds : Ends (decimal ++ "_") (power ++ rest) :=
    ends_optional hpower (fun h => ends_exponent h (by decide)) hends
  rw [readDecimal, skipDigits_run isClass_digit hcs (run_of_number hwhole)
    (ends_fraction hpart (by decide))]
  rw [fraction?_eq isClass_digit hcs.drop hpart hpartEnds]
  dsimp only
  rw [exponent?_getD_eq isClass_decimalExponent hcs.drop.drop hpower hends
    (ends_width hrest (by decide)), size_append, size_append]

lemma readPointFirst_eq (hcs : src.Ahead start (part ++ (power ++ rest)))
    (hpart : part ∈ fraction decimal) (hpower : power ∈ 1 + exponent "eE")
    (hrest : rest ∈ 1 + wordOf (widths true)) :
    readPointFirst src start
      = { stop := start + (part ++ power).utf8Encode.size, isFloat := true } := by
  have hends : Ends (decimal ++ "_") rest := ends_width hrest (by decide)
  have hpartEnds : Ends (decimal ++ "_") (power ++ rest) :=
    ends_optional hpower (fun h => ends_exponent h (by decide)) hends
  obtain ⟨cs, hnumber, rfl⟩ := mem_fraction.1 hpart
  have htail : src.Ahead (start + 1) (cs ++ (power ++ rest)) := Source.Ahead.tail hcs
  have hsize : start + ('.' :: cs).utf8Encode.size = start + 1 + cs.utf8Encode.size := by
    rw [Source.size_utf8Encode_cons, ← Nat.add_assoc]
    rfl
  rw [readPointFirst, skipDigits_run isClass_digit htail (run_of_number hnumber) hpartEnds]
  rw [exponent?_getD_eq isClass_decimalExponent htail.drop hpower hends
    (ends_width hrest (by decide)), size_append, hsize]

/-- A run with a digit is longer than the underscores it starts with. -/
lemma skipWhile_separator_ne (hcs : src.Ahead pos (word ++ rest))
    (hword : word ∈ runWithDigit base.digits) :
    src.skipWhile isSeparator pos ≠ pos + word.utf8Encode.size := by
  obtain ⟨d, hd, hdigit⟩ := hword.2
  have apart : base.digits.toList.all (· ∉ "_".toList) := by
    cases base <;> decide
  obtain ⟨front, behind, e, hfront, -, hstop⟩ := isClass_separator.exists_skipWhile hcs
  intro hsame
  have hbehind : src.Ahead (pos + front.utf8Encode.size) behind := by
    rw [e] at hcs
    exact hcs.drop
  have hrest := hcs.drop
  rw [← hsame, hstop] at hrest
  rw [hbehind.unique hrest] at e
  rw [← List.append_cancel_right e] at hfront
  exact not_mem_of_all apart hdigit (hfront d hd)

lemma front_ahead {m : Char} (hm : m ∈ base.letters.toList)
    (hcs : src.Ahead start ('0' :: m :: cs)) :
    baseAt src start = some base ∧ src.Ahead (start + 2) cs := by
  have hzero : src.byteAt start = some 0x30 := hcs.byteAt 0
  have htail : src.Ahead (start + 1) (m :: cs) := hcs.tail
  obtain ⟨b, hb, hletter⟩ :=
    Source.byteIs_iff.1 ((base.isClass_letter.byteIs_iff htail).2 ⟨m, rfl, hm⟩)
  refine ⟨?_, ?_⟩
  · rw [baseAt, hzero, beq_self_eq_true, if_pos rfl, hb, Option.bind_some]
    exact beq_iff_eq.1 hletter
  · have hbehind := htail.tail
    rwa [base.isClass_letter.utf8Size_eq_one hm] at hbehind

/-- A decimal number announces no base. -/
lemma baseAt_number (hcs : src.Ahead start (whole ++ rest)) (hwhole : whole ∈ number decimal)
    (hrest : ∀ base : Base, Ends base.letters rest) : baseAt src start = none := by
  obtain ⟨c, cs, rfl, hc, htail⟩ := mem_number.1 hwhole
  have hsize := isClass_digit.utf8Size_eq_one hc
  have hbehind : src.Ahead (start + c.utf8Size) (cs ++ rest) := Source.Ahead.tail hcs
  rw [hsize] at hbehind
  have hends (base : Base) : Ends base.letters (cs ++ rest) := by
    cases cs with
    | nil => exact hrest base
    | cons d cs =>
      have apart : (decimal ++ "_").toList.all (· ∉ base.letters.toList) := by
        cases base <;> decide
      rintro _ ⟨⟩
      exact not_mem_of_all apart (htail d List.mem_cons_self)
  unfold baseAt
  split
  case isFalse => rfl
  case isTrue =>
    rw [Option.eq_none_iff_forall_ne_some]
    intro base hbase
    obtain ⟨b, hb, hbase⟩ := Option.bind_eq_some_iff.1 hbase
    have hletter := base.isClass_letter.byteIs_of_ends hbehind (hends base)
    rw [Source.byteIs, hb, Option.any_some, hbase, beq_self_eq_true] at hletter
    exact Bool.false_ne_true hletter.symm

lemma size_front {m : Char} (hm : m ∈ base.letters.toList) (cs : List Char) (pos : Nat) :
    pos + ('0' :: m :: cs).utf8Encode.size = pos + 2 + cs.utf8Encode.size := by
  rw [Source.size_utf8Encode_cons, Source.size_utf8Encode_cons,
    base.isClass_letter.utf8Size_eq_one hm, ← Nat.add_assoc, ← Nat.add_assoc]
  rfl

lemma readBased_whole {m : Char} (hcs : src.Ahead start ('0' :: m :: (word ++ rest)))
    (hm : m ∈ base.letters.toList) (hword : word ∈ runWithDigit base.digits)
    (hrest : rest ∈ 1 + wordOf (widths false)) :
    readBased src start base
      = { stop := start + ('0' :: m :: word).utf8Encode.size, isFloat := false
          flags := base.flags } := by
  obtain ⟨-, hbehind⟩ := front_ahead hm hcs
  have hends : Ends (base.digits ++ "_") rest := ends_width hrest (by cases base <;> decide)
  have hdigit : (src.skipWhile isSeparator (start + 2) != start + 2 + word.utf8Encode.size) = true :=
    bne_iff_ne.2 (skipWhile_separator_ne hbehind hword)
  have hnone : hexFloat? src (start + 2 + word.utf8Encode.size) = none := by
    rw [hexFloat?, fraction?_none hbehind.drop (ends_width hrest (by decide)), Option.getD_none,
      exponent?_none isClass_binaryExponent hbehind.drop (ends_width hrest (by decide))]
  have hother : src.byteIs (start + 2 + word.utf8Encode.size) Byte.isDigit = false :=
    isClass_digit.byteIs_of_ends hbehind.drop (ends_width hrest (by decide))
  rw [readBased, skipDigits_run base.isClass_digit hbehind hword.1 hends, hdigit, hnone, hother,
    size_front hm]
  cases base <;> rfl

lemma readBased_hexFloat {m : Char} {front : List Char}
    (hcs : src.Ahead start ('0' :: m :: (front ++ (part ++ (power ++ rest)))))
    (hm : m ∈ Base.hexadecimal.letters.toList) (hfront : front ∈ run Base.hexadecimal.digits)
    (hpart : part ∈ 1 + fraction Base.hexadecimal.digits) (hpower : power ∈ exponent "pP")
    (hrest : rest ∈ 1 + wordOf (widths true)) :
    readBased src start .hexadecimal
      = { stop := start + ('0' :: m :: (front ++ part ++ power)).utf8Encode.size, isFloat := true
          flags := Base.hexadecimal.flags } := by
  obtain ⟨-, hbehind⟩ := front_ahead hm hcs
  have hpowerEnds : Ends (Base.hexadecimal.digits ++ "_") (power ++ rest) :=
    ends_exponent hpower (by decide)
  have hends : Ends (Base.hexadecimal.digits ++ "_") (part ++ (power ++ rest)) :=
    ends_optional hpart (fun h => ends_fraction h (by decide)) hpowerEnds
  have hclass : Byte.IsClass Byte.isHexDigit Base.hexadecimal.digits :=
    Base.hexadecimal.isClass_digit
  have hfloat : hexFloat? src (start + 2 + front.utf8Encode.size)
      = some (start + 2 + (front ++ part ++ power).utf8Encode.size) := by
    rw [hexFloat?, fraction?_getD_eq hclass hbehind.drop hpart hpowerEnds
      (ends_exponent hpower (by decide)),
      exponent?_eq isClass_binaryExponent hbehind.drop.drop hpower (ends_width hrest (by decide)),
      size_append, size_append]
  have hstop := skipDigits_run Base.hexadecimal.isClass_digit hbehind hfront hends
  rw [readBased, if_pos rfl, hstop, hfloat, size_front hm]

/-- A number that starts with a decimal number and announces no base. -/
lemma bodyAt_decimal (hcs : src.Ahead start (whole ++ rest)) (hwhole : whole ∈ number decimal)
    (hrest : ∀ base : Base, Ends base.letters rest) : bodyAt src start = readDecimal src start := by
  rw [bodyAt, byteIs_number isClass_digit hcs hwhole, if_pos rfl, baseAt_number hcs hwhole hrest]

lemma bodyAt_based {m : Char} (hcs : src.Ahead start ('0' :: m :: cs))
    (hm : m ∈ base.letters.toList) : bodyAt src start = readBased src start base := by
  have hzero : src.byteIs start Byte.isDigit :=
    (isClass_digit.byteIs_iff hcs).2 ⟨'0', rfl, by decide⟩
  rw [bodyAt, hzero, if_pos rfl, (front_ahead hm hcs).1]

lemma bodyAt_pointFirst (hcs : src.Ahead start ('.' :: cs)) :
    bodyAt src start = readPointFirst src start := by
  have hpoint : src.byteIs start Byte.isDigit = false := by
    refine isClass_digit.byteIs_of_ends hcs ?_
    rintro _ ⟨⟩
    decide
  rw [bodyAt, hpoint, if_neg Bool.false_ne_true]

lemma bodyAt_wholes (hcs : src.Ahead start (word ++ rest)) (hword : word ∈ wholes)
    (hrest : rest ∈ 1 + wordOf (widths false)) :
    ∃ flags, bodyAt src start
      = { stop := start + word.utf8Encode.size, isFloat := false, flags } := by
  obtain hnumber | ⟨base, hbased⟩ := mem_wholes.1 hword
  · have hends (base : Base) : Ends base.letters rest :=
      ends_width hrest (by cases base <;> decide)
    exact ⟨_, (bodyAt_decimal hcs hnumber hends).trans (readDecimal_whole hcs hnumber hrest)⟩
  · obtain ⟨m, hm, cs, hdigits, rfl⟩ := mem_based.1 hbased
    exact ⟨_, (bodyAt_based hcs hm).trans (readBased_whole hcs hm hdigits hrest)⟩

lemma bodyAt_reals (hcs : src.Ahead start (word ++ rest)) (hword : word ∈ reals)
    (hrest : rest ∈ 1 + wordOf (widths true)) :
    ∃ flags, bodyAt src start
      = { stop := start + word.utf8Encode.size, isFloat := true, flags } := by
  obtain ⟨whole, hwhole, power, hpower, rfl⟩ | ⟨whole, hwhole, part, hpart, power, hpower, rfl⟩
    | ⟨part, hpart, power, hpower, rfl⟩
    | ⟨m, hm, digits, hdigits, part, hpart, power, hpower, rfl⟩ := mem_reals.1 hword
  · rw [List.append_assoc] at hcs
    have hends (base : Base) : Ends base.letters (power ++ rest) :=
      ends_exponent hpower (by cases base <;> decide)
    exact ⟨_, (bodyAt_decimal hcs hwhole hends).trans
      (readDecimal_exponent hcs hwhole hpower hrest)⟩
  · rw [List.append_assoc, List.append_assoc] at hcs
    have hends (base : Base) : Ends base.letters (part ++ (power ++ rest)) :=
      ends_fraction hpart (by cases base <;> decide)
    exact ⟨_, (bodyAt_decimal hcs hwhole hends).trans
      (readDecimal_fraction hcs hwhole hpart hpower hrest)⟩
  · rw [List.append_assoc] at hcs
    have hbody := readPointFirst_eq hcs hpart hpower hrest
    obtain ⟨cs, -, rfl⟩ := mem_fraction.1 hpart
    exact ⟨_, (bodyAt_pointFirst hcs).trans hbody⟩
  · have hcs : src.Ahead start ('0' :: m :: (digits ++ (part ++ (power ++ rest)))) := by
      rwa [List.cons_append, List.cons_append, List.append_assoc, List.append_assoc] at hcs
    exact ⟨_, (bodyAt_based hcs hm).trans (readBased_hexFloat hcs hm hdigits hpart hpower hrest)⟩

/-- A number of the grammar is read as a whole, if its width or nothing stands behind it. -/
lemma bodyAt_eq (hcs : src.Ahead start (word ++ rest)) (hword : word ∈ bodies isFloat)
    (hrest : rest ∈ 1 + wordOf (widths isFloat)) :
    ∃ flags, bodyAt src start = { stop := start + word.utf8Encode.size, isFloat, flags } := by
  cases isFloat with
  | true => exact bodyAt_reals hcs hword hrest
  | false => exact bodyAt_wholes hcs hword hrest

end

end Numeral

end CangjieSyntax
