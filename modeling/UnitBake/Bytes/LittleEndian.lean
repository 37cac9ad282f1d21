/-
# Little-endian words

The byte order of the resource format of the specification (section 6) and of its records (section
4.5).

Fixed-width words as bytes, least significant byte first.  `split n v` writes the `n` low bytes of
a number and `join` reads a byte string back; the two are inverse on strings of one length
(`join_split`, `split_join`), from which the round trips of 32-bit and 64-bit words follow.
-/
namespace UnitBake.LittleEndian

/-! ## 1. Numbers and byte strings -/

/-- The numbers of `n` bytes are those below it. -/
def limit : Nat → Nat
  | 0 => 1
  | n + 1 => 256 * limit n

/-- The `n` low bytes of `v`, least significant first. -/
def split : Nat → Nat → List UInt8
  | 0, _ => []
  | n + 1, v => UInt8.ofNat v :: split n (v / 256)

/-- The number a byte string stands for, least significant byte first. -/
def join : List UInt8 → Nat
  | [] => 0
  | b :: bs => b.toNat + 256 * join bs

@[simp] theorem length_split (n v : Nat) : (split n v).length = n := by
  induction n generalizing v with
  | zero => rfl
  | succ n ih => simp [split, ih]

theorem join_lt (bs : List UInt8) : join bs < limit bs.length := by
  induction bs with
  | nil => exact Nat.zero_lt_one
  | cons b bs ih =>
    have hb : b.toNat < 256 := b.toNat_lt
    simp only [join, List.length_cons, limit]
    omega

/-- Reading the `n` low bytes of a number that has no more gives the number. -/
theorem join_split {n v : Nat} (h : v < limit n) : join (split n v) = v := by
  induction n generalizing v with
  | zero => exact (Nat.lt_one_iff.mp h).symm
  | succ n ih =>
    have hq : v / 256 < limit n := Nat.div_lt_of_lt_mul h
    simp only [split, join, ih hq, UInt8.toNat_ofNat']
    omega

/-- Writing what was read gives the byte string. -/
theorem split_join (bs : List UInt8) : split bs.length (join bs) = bs := by
  induction bs with
  | nil => rfl
  | cons b bs ih =>
    have hb : b.toNat < 256 := b.toNat_lt
    have hdiv : (b.toNat + 256 * join bs) / 256 = join bs := by omega
    have hmod : UInt8.ofNat (b.toNat + 256 * join bs) = b := by
      apply UInt8.toNat_inj.mp
      rw [UInt8.toNat_ofNat']
      omega
    simp only [List.length_cons, split, join, hdiv, hmod, ih]

/-! ## 2. Words -/

/-- The four bytes of a 32-bit word. -/
def bytes32 (w : UInt32) : List UInt8 := split 4 w.toNat

/-- The eight bytes of a 64-bit word. -/
def bytes64 (w : UInt64) : List UInt8 := split 8 w.toNat

/-- The 32-bit word at the head of a byte string. -/
def word32 (bs : List UInt8) : UInt32 := UInt32.ofNat (join (bs.take 4))

/-- The 64-bit word at the head of a byte string. -/
def word64 (bs : List UInt8) : UInt64 := UInt64.ofNat (join (bs.take 8))

@[simp] theorem length_bytes32 (w : UInt32) : (bytes32 w).length = 4 := length_split _ _

@[simp] theorem length_bytes64 (w : UInt64) : (bytes64 w).length = 8 := length_split _ _

/-- A 32-bit word reads back, whatever follows it. -/
@[simp] theorem word32_bytes32_append (w : UInt32) (rest : List UInt8) :
    word32 (bytes32 w ++ rest) = w := by
  have hlt : w.toNat < limit 4 := w.toNat_lt
  rw [word32, List.take_append_of_le_length (by simp), List.take_of_length_le (by simp),
    bytes32, join_split hlt, UInt32.ofNat_toNat]

/-- A 64-bit word reads back, whatever follows it. -/
@[simp] theorem word64_bytes64_append (w : UInt64) (rest : List UInt8) :
    word64 (bytes64 w ++ rest) = w := by
  have hlt : w.toNat < limit 8 := w.toNat_lt
  rw [word64, List.take_append_of_le_length (by simp), List.take_of_length_le (by simp),
    bytes64, join_split hlt, UInt64.ofNat_toNat]

/-- Four bytes are the bytes of the word read from them. -/
theorem bytes32_word32 {bs : List UInt8} (h : bs.length = 4) : bytes32 (word32 bs) = bs := by
  have hlt : join bs < limit 4 := h ▸ join_lt bs
  rw [bytes32, word32, List.take_of_length_le (by omega), UInt32.toNat_ofNat_of_lt' hlt, ← h,
    split_join]

/-- Cuts a byte string into 32-bit words; up to three bytes that are left over are dropped. -/
def words32 : List UInt8 → List UInt32
  | a :: b :: c :: d :: rest => word32 [a, b, c, d] :: words32 rest
  | _ => []

/-- The bytes of a list of words. -/
def bytesOfWords (ws : List UInt32) : List UInt8 := ws.flatMap bytes32

@[simp] theorem length_bytesOfWords (ws : List UInt32) :
    (bytesOfWords ws).length = 4 * ws.length := by
  induction ws with
  | nil => rfl
  | cons w ws ih =>
    simp only [bytesOfWords, List.flatMap_cons, List.length_append, length_bytes32,
      List.length_cons] at ih ⊢
    omega

/-- Words read back from their bytes. -/
@[simp] theorem words32_bytesOfWords (ws : List UInt32) : words32 (bytesOfWords ws) = ws := by
  induction ws with
  | nil => rfl
  | cons w ws ih =>
    have hlt : w.toNat < limit 4 := w.toNat_lt
    have hw : word32 (bytes32 w) = w := by simpa using word32_bytes32_append w []
    rw [bytesOfWords, List.flatMap_cons, ← bytesOfWords]
    simp only [bytes32, split, List.cons_append, List.nil_append, words32, ih]
    exact congrArg (· :: ws) hw

/-- Bytes whose number is divisible by four are the bytes of the words read from them. -/
theorem bytesOfWords_words32 : ∀ {bs : List UInt8}, bs.length % 4 = 0 →
    bytesOfWords (words32 bs) = bs
  | [], _ => rfl
  | [_], h => absurd h (by simp)
  | [_, _], h => absurd h (by simp)
  | [_, _, _], h => absurd h (by simp)
  | a :: b :: c :: d :: rest, h => by
    have hrest : rest.length % 4 = 0 := by
      simp only [List.length_cons] at h
      omega
    have hword : bytes32 (word32 [a, b, c, d]) = [a, b, c, d] := bytes32_word32 rfl
    rw [words32, bytesOfWords, List.flatMap_cons, ← bytesOfWords, bytesOfWords_words32 hrest,
      hword]
    rfl

end UnitBake.LittleEndian
