import UniRtos.Lib.CObject

/-!
Reading texts: the number at the start of one, and texts in which a quotation
mark is written twice.
-/

namespace CText

/-! Numbers. -/

def isSpace (byte : UInt8) : Bool := byte == 32 || (9 ≤ byte && byte ≤ 13)

def isDigit (byte : UInt8) : Bool := 48 ≤ byte && byte ≤ 57

def digitValue (byte : UInt8) : Nat := byte.toNat - 48

def digits (bytes : List UInt8) : Nat :=
  (bytes.takeWhile isDigit).foldl (fun value byte => 10 * value + digitValue byte) 0

def signed : List UInt8 → Int
  | 43 :: rest => digits rest
  | 45 :: rest => -digits rest
  | rest => digits rest

/-- `atoi`, for a text whose number fits into an `int`. -/
def atoi (bytes : List UInt8) : Int := signed (bytes.dropWhile isSpace)

theorem digitValue_lt {byte : UInt8} (digit : isDigit byte) : digitValue byte < 10 := by
  simp only [isDigit, Bool.and_eq_true, decide_eq_true_eq, UInt8.le_iff_toNat_le] at digit
  have upper : byte.toNat ≤ 57 := digit.2
  unfold digitValue
  omega

theorem eq_of_digitValue {byte other : UInt8} (digit : isDigit byte) (positive : 48 ≤ other.toNat)
    (same : digitValue byte = digitValue other) : byte = other := by
  simp only [isDigit, Bool.and_eq_true, decide_eq_true_eq, UInt8.le_iff_toNat_le] at digit
  have lower : 48 ≤ byte.toNat := digit.1
  unfold digitValue at same
  exact UInt8.toNat_inj.mp (by omega)

theorem foldl_digits_lt {bytes : List UInt8} (all : ∀ byte ∈ bytes, isDigit byte) (value : Nat) :
    bytes.foldl (fun value byte => 10 * value + digitValue byte) value <
      (value + 1) * 10 ^ bytes.length := by
  induction bytes generalizing value with
  | nil => simp
  | cons byte rest ih =>
      have small := digitValue_lt (all byte List.mem_cons_self)
      have tail := ih (fun other inside => all other (List.mem_cons_of_mem _ inside))
        (10 * value + digitValue byte)
      calc (byte :: rest).foldl (fun value byte => 10 * value + digitValue byte) value
          < (10 * value + digitValue byte + 1) * 10 ^ rest.length := tail
        _ ≤ ((value + 1) * 10) * 10 ^ rest.length := Nat.mul_le_mul_right _ (by omega)
        _ = (value + 1) * 10 ^ (byte :: rest).length := by
            rw [List.length_cons, Nat.pow_succ, Nat.mul_comm (10 ^ _), Nat.mul_assoc]

theorem digits_lt (bytes : List UInt8) : digits bytes < 10 ^ bytes.length := by
  have within := @foldl_digits_lt (bytes.takeWhile isDigit)
    (fun _ inside => List.mem_takeWhile_imp inside) 0
  have shorter : (bytes.takeWhile isDigit).length ≤ bytes.length :=
    (List.takeWhile_prefix isDigit).length_le
  calc digits bytes < (0 + 1) * 10 ^ (bytes.takeWhile isDigit).length := within
    _ ≤ 10 ^ bytes.length := by
        rw [Nat.zero_add, Nat.one_mul]
        exact Nat.pow_le_pow_right (by decide) shorter

theorem digits_cons_of_not {byte : UInt8} (other : ¬isDigit byte) (rest : List UInt8) :
    digits (byte :: rest) = 0 := by
  rw [digits, List.takeWhile_cons_of_neg other, List.foldl_nil]

theorem signed_lt (bytes : List UInt8) : signed bytes < 10 ^ bytes.length := by
  have whole := digits_lt bytes
  unfold signed
  split
  · case _ rest =>
      have part := digits_lt rest
      have longer : 10 ^ rest.length ≤ 10 ^ (43 :: rest).length :=
        Nat.pow_le_pow_right (by decide) (Nat.le_succ _)
      exact_mod_cast Nat.lt_of_lt_of_le part longer
  · case _ rest =>
      have positive : 0 < 10 ^ (45 :: rest).length := Nat.pow_pos (by decide)
      have cast : ((10 ^ (45 :: rest).length : Nat) : Int) = 10 ^ (45 :: rest).length := by simp
      omega
  · exact_mod_cast whole

theorem signed_cons_lt {byte : UInt8} (other : ¬isDigit byte) (rest : List UInt8) :
    signed (byte :: rest) < 10 ^ rest.length := by
  have positive : (0 : Int) < 10 ^ rest.length := Int.pow_pos (by decide)
  unfold signed
  split
  · case _ tail same =>
      cases same
      exact_mod_cast digits_lt rest
  · case _ tail same =>
      cases same
      omega
  · rw [digits_cons_of_not other]
    exact positive

theorem isDigit_not_space {byte : UInt8} (digit : isDigit byte) : ¬isSpace byte := by
  intro space
  simp only [isDigit, isSpace, Bool.and_eq_true, Bool.or_eq_true, decide_eq_true_eq, beq_iff_eq,
    UInt8.le_iff_toNat_le] at digit space
  have lower : 48 ≤ byte.toNat := digit.1
  rcases space with rfl | ⟨_, upper⟩
  · exact absurd lower (by decide)
  · have carriage : byte.toNat ≤ 13 := upper
    omega

theorem atoi_cons_digit {byte : UInt8} (digit : isDigit byte) (rest : List UInt8) :
    atoi (byte :: rest) = digits (byte :: rest) := by
  rw [atoi, List.dropWhile_cons_of_neg (isDigit_not_space digit)]
  unfold signed
  split
  · case _ same =>
      cases same
      exact absurd digit (by decide)
  · case _ same =>
      cases same
      exact absurd digit (by decide)
  · rfl

theorem atoi_cons_lt {byte : UInt8} (other : ¬isDigit byte) (rest : List UInt8) :
    atoi (byte :: rest) < 10 ^ rest.length := by
  rw [atoi]
  by_cases space : isSpace byte
  · rw [List.dropWhile_cons_of_pos space]
    have shorter : (rest.dropWhile isSpace).length ≤ rest.length :=
      (List.dropWhile_suffix isSpace).length_le
    have less : 10 ^ (rest.dropWhile isSpace).length ≤ 10 ^ rest.length :=
      Nat.pow_le_pow_right (by decide) shorter
    exact Int.lt_of_lt_of_le (signed_lt _) (by exact_mod_cast less)
  · rw [List.dropWhile_cons_of_neg space]
    exact signed_cons_lt other rest

theorem atoi_three_iff (first second third : UInt8) :
    atoi [first, second, third] = 257 ↔ first = 50 ∧ second = 53 ∧ third = 55 := by
  constructor
  · intro value
    by_cases firstDigit : isDigit first
    · have one := digitValue_lt firstDigit
      rw [atoi_cons_digit firstDigit, digits, List.takeWhile_cons_of_pos firstDigit,
        List.foldl_cons] at value
      by_cases secondDigit : isDigit second
      · have two := digitValue_lt secondDigit
        rw [List.takeWhile_cons_of_pos secondDigit, List.foldl_cons] at value
        by_cases thirdDigit : isDigit third
        · have three := digitValue_lt thirdDigit
          rw [List.takeWhile_cons_of_pos thirdDigit, List.takeWhile_nil, List.foldl_cons,
            List.foldl_nil] at value
          have isTwo : digitValue first = digitValue 50 := by
            have shown : digitValue 50 = 2 := rfl
            omega
          have isFive : digitValue second = digitValue 53 := by
            have shown : digitValue 53 = 5 := rfl
            omega
          have isSeven : digitValue third = digitValue 55 := by
            have shown : digitValue 55 = 7 := rfl
            omega
          exact ⟨eq_of_digitValue firstDigit (by decide) isTwo,
            eq_of_digitValue secondDigit (by decide) isFive,
            eq_of_digitValue thirdDigit (by decide) isSeven⟩
        · rw [List.takeWhile_cons_of_neg thirdDigit, List.foldl_nil] at value
          omega
      · rw [List.takeWhile_cons_of_neg secondDigit, List.foldl_nil] at value
        omega
    · have less := atoi_cons_lt firstDigit [second, third]
      have hundred : (10 : Int) ^ [second, third].length = 100 := rfl
      omega
  · rintro ⟨rfl, rfl, rfl⟩
    decide

/-! Quotation. -/

/-- Every quotation mark of the text is written twice. -/
def doubled (mark : UInt8) (text : List UInt8) : List UInt8 :=
  text.flatMap fun byte => if byte = mark then [mark, mark] else [byte]

theorem doubled_of_not_mem {mark : UInt8} {text : List UInt8} (plain : mark ∉ text) :
    doubled mark text = text := by
  induction text with
  | nil => rfl
  | cons byte rest ih =>
      have other : byte ≠ mark := fun same => plain (same ▸ List.mem_cons_self)
      have tail := ih fun inside => plain (List.mem_cons_of_mem _ inside)
      rw [doubled, List.flatMap_cons, if_neg other]
      exact congrArg (byte :: ·) tail

theorem length_le_doubled (mark : UInt8) (text : List UInt8) :
    text.length ≤ (doubled mark text).length := by
  induction text with
  | nil => exact Nat.zero_le _
  | cons byte rest ih =>
      rw [doubled, List.flatMap_cons, List.length_append, List.length_cons]
      have first : 1 ≤ (if byte = mark then [mark, mark] else [byte]).length := by
        split <;> simp
      have tail : rest.length ≤ (rest.flatMap fun byte =>
        if byte = mark then [mark, mark] else [byte]).length := ih
      omega

theorem takeWhile_doubled (mark : UInt8) (text rest : List UInt8) :
    (doubled mark text ++ mark :: rest).takeWhile (· ≠ mark) = text.takeWhile (· ≠ mark) := by
  induction text with
  | nil => simp [doubled]
  | cons byte tail ih =>
      rw [doubled, List.flatMap_cons]
      by_cases same : byte = mark
      · simp [same]
      · rw [if_neg same, List.append_assoc, List.singleton_append]
        rw [List.takeWhile_cons_of_pos (by simpa using same),
          List.takeWhile_cons_of_pos (by simpa using same)]
        exact congrArg (byte :: ·) ih

/-! Hexadecimal texts. -/

def hexValue (byte : UInt8) : Nat :=
  if 48 ≤ byte ∧ byte ≤ 57 then byte.toNat - 48
  else if 65 ≤ byte ∧ byte ≤ 70 then byte.toNat - 55
  else byte.toNat - 87

def isHexDigit (byte : UInt8) : Bool :=
  (48 ≤ byte && byte ≤ 57) || (65 ≤ byte && byte ≤ 70) || (97 ≤ byte && byte ≤ 102)

/-- The octets of a hexadecimal text; half an octet at its end is left out. -/
def hexOctets : List UInt8 → List UInt8
  | high :: low :: rest => (16 * hexValue high + hexValue low).toUInt8 :: hexOctets rest
  | _ => []

theorem length_hexOctets (text : List UInt8) : (hexOctets text).length = text.length / 2 := by
  induction text using hexOctets.induct with
  | case1 high low rest ih =>
      rw [hexOctets, List.length_cons, List.length_cons, List.length_cons, ih]
      omega
  | case2 text none =>
      match text with
      | [] | [_] => simp [hexOctets]
      | high :: low :: rest => exact absurd rfl (none high low rest)

end CText
