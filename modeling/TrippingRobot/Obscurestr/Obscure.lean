import TrippingRobot.Data.CInt

/-! The obscuring of string literals at compile time and the run-time loop that undoes it. -/

namespace TrippingRobot.Obscurestr

open Data

/-- The bits of a `char`. -/
abbrev CharBits := BitVec 8

/-- Whether plain `char` is a signed type is up to the platform. -/
inductive CharKind
  | signed
  | unsigned
  deriving DecidableEq

/-- A `char` as the `int` or `unsigned int` it is converted to before it takes part in `^`. -/
def CharKind.widen : CharKind → CharBits → CInt
  | .signed, ch => ch.signExtend 32
  | .unsigned, ch => ch.setWidth 32

/-- `ByteShifter<WORD, SHIFT>::byte` -/
def byteShifter (word : CInt) (shift : Nat) : BitVec 8 :=
  ((word >>> (shift % 4 * 8)) &&& 0xFF).setWidth 8

/-- `obscure` of `ObscureStr`; the result is converted back to `char`. -/
def obscure (kind : CharKind) (ch : CharBits) (conversionKey : CInt) : CharBits :=
  (kind.widen ch ^^^ conversionKey).setWidth 8

/-- What the constructor of `ObscureStr` stores for the characters of a literal. -/
def obscureStr (kind : CharKind) (key : CInt) (str : List CharBits) : List CharBits :=
  str.mapIdx fun index ch => obscure kind ch ((byteShifter key index).setWidth 32)

/-- The key byte `deobscure` applies to the next character. -/
def conversionKey (key : CInt) : BitVec 8 := (key &&& 0xFF).setWidth 8

/-- What `deobscure` makes of its key after each character. -/
def rotatedKey (key : CInt) : CInt := ((conversionKey key).setWidth 32 <<< 24) ||| (key >>> 8)

/-- `ss_obscurestr::deobscure` over the `str_size` characters at `str`. -/
def deobscure (kind : CharKind) (key : CInt) : List CharBits → List CharBits
  | [] => []
  | ch :: rest =>
    (kind.widen ch ^^^ (conversionKey key).setWidth 32).setWidth 8 ::
      deobscure kind (rotatedKey key) rest

/-! ## The two ways to choose a key byte -/

private theorem getLsbD_byteMask (bit : Nat) : (0xFF : CInt).getLsbD bit = decide (bit < 8) :=
  Nat.testBit_two_pow_sub_one 8 bit

theorem getLsbD_byteShifter (word : CInt) (shift : Nat) {bit : Nat} (inside : bit < 8) :
    (byteShifter word shift).getLsbD bit = word.getLsbD (shift % 4 * 8 + bit) := by
  rw [byteShifter, BitVec.getLsbD_setWidth, BitVec.getLsbD_and, BitVec.getLsbD_ushiftRight,
    getLsbD_byteMask]
  simp [inside]

theorem conversionKey_eq (key : CInt) : conversionKey key = byteShifter key 0 := by
  simp [conversionKey, byteShifter]

theorem getLsbD_rotatedKey (key : CInt) {bit : Nat} (inside : bit < 32) :
    (rotatedKey key).getLsbD bit = key.getLsbD ((bit + 8) % 32) := by
  rw [rotatedKey, BitVec.getLsbD_or, BitVec.getLsbD_shiftLeft, BitVec.getLsbD_ushiftRight]
  by_cases low : bit < 24
  · have next : (bit + 8) % 32 = 8 + bit := by omega
    simp [low, next]
  · have wrapped : (bit + 8) % 32 = bit - 24 := by omega
    have above : key.getLsbD (8 + bit) = false := BitVec.getLsbD_of_ge _ _ (by omega)
    have first : bit - 24 < 8 := by omega
    have narrow : bit - 24 < 32 := by omega
    rw [wrapped, above, BitVec.getLsbD_setWidth, conversionKey_eq, getLsbD_byteShifter key 0 first]
    simp [low, inside, narrow]

/-- A rotated key offers at each index what the key itself offers at the next one. -/
theorem byteShifter_rotatedKey (key : CInt) (index : Nat) :
    byteShifter (rotatedKey key) index = byteShifter key (index + 1) := by
  apply BitVec.eq_of_getLsbD_eq
  intro bit inside
  have position : index % 4 * 8 + bit < 32 := by omega
  have next : (index % 4 * 8 + bit + 8) % 32 = (index + 1) % 4 * 8 + bit := by omega
  rw [getLsbD_byteShifter _ _ inside, getLsbD_byteShifter _ _ inside,
    getLsbD_rotatedKey key position, next]

/-- The key `deobscure` is left with after `index` characters. -/
def keyAfter (key : CInt) : Nat → CInt
  | 0 => key
  | index + 1 => keyAfter (rotatedKey key) index

theorem conversionKey_keyAfter (key : CInt) (index : Nat) :
    conversionKey (keyAfter key index) = byteShifter key index := by
  induction index generalizing key with
  | zero => exact conversionKey_eq key
  | succ index same =>
    rw [keyAfter, same, byteShifter_rotatedKey]

/-! ## Exclusive or after conversion -/

/-- However a `char` is widened, the conversion back leaves the plain exclusive or. -/
theorem setWidth_widen_xor (kind : CharKind) (ch byte : BitVec 8) :
    (kind.widen ch ^^^ byte.setWidth 32).setWidth 8 = ch ^^^ byte := by
  have narrowed : (kind.widen ch).setWidth 8 = ch := by
    cases kind with
    | signed =>
      apply BitVec.eq_of_getLsbD_eq
      intro bit inside
      have narrow : bit < 32 := by omega
      rw [CharKind.widen, BitVec.getLsbD_setWidth, BitVec.getLsbD_signExtend]
      simp [inside, narrow]
    | unsigned => simp [CharKind.widen]
  rw [BitVec.setWidth_xor, narrowed]
  simp

theorem obscureStr_eq (kind : CharKind) (key : CInt) (str : List CharBits) :
    obscureStr kind key str = str.mapIdx fun index ch => ch ^^^ byteShifter key index := by
  simp only [obscureStr, obscure, setWidth_widen_xor]

theorem deobscure_eq (kind : CharKind) (key : CInt) (str : List CharBits) :
    deobscure kind key str = str.mapIdx fun index ch => ch ^^^ byteShifter key index := by
  induction str generalizing key with
  | nil => rfl
  | cons ch rest same =>
    rw [deobscure, same, List.mapIdx_cons, setWidth_widen_xor, conversionKey_eq]
    simp only [byteShifter_rotatedKey]

theorem mapIdx_xor_twice (stream : Nat → BitVec 8) (str : List CharBits) :
    (str.mapIdx fun index ch => ch ^^^ stream index).mapIdx (fun index ch => ch ^^^ stream index) =
      str := by
  induction str generalizing stream with
  | nil => rfl
  | cons ch rest restored =>
    rw [List.mapIdx_cons, List.mapIdx_cons, restored fun index => stream (index + 1),
      BitVec.xor_assoc, BitVec.xor_self, BitVec.xor_zero]

/-- Obscuring at compile time and de-obscuring at run time undo each other, since they
use one key stream. -/
theorem deobscure_obscureStr (kind : CharKind) (key : CInt) (str : List CharBits) :
    deobscure kind key (obscureStr kind key str) = str ∧
      obscureStr kind key (deobscure kind key str) = str ∧
      ∀ index, conversionKey (keyAfter key index) = byteShifter key index := by
  refine ⟨?_, ?_, conversionKey_keyAfter key⟩
  · rw [obscureStr_eq, deobscure_eq, mapIdx_xor_twice]
  · rw [obscureStr_eq, deobscure_eq, mapIdx_xor_twice]

end TrippingRobot.Obscurestr
