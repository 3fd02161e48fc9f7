import CExamples.Common.CLang

/-!
# Words in memory and on the wire

`littleEndian` and its inverse `ofLittleEndian` write and read a natural number as bytes.
`storeWord` and `loadWord` are the accesses through a `uint32_t*` on a little-endian host, and
`htonl` and `ntohl` reverse the bytes of a word. Together they put a word on the wire most
significant byte first: `storeWord_htonl` for the sender and `ntohl_loadWord` for the receiver.
-/

namespace CExamples.C

/-! ## Numerals in base 256 -/

/-- The `w` low bytes of `n`, the least significant first. -/
def littleEndian : ℕ → ℕ → List UInt8
  | 0, _ => []
  | w + 1, n => UInt8.ofNat n :: littleEndian w (n / 256)

/-- The number with the given bytes, the least significant first. -/
def ofLittleEndian : List UInt8 → ℕ
  | [] => 0
  | b :: bytes => b.toNat + 256 * ofLittleEndian bytes

/-- The `w` low bytes of `n`, the most significant first. -/
def bigEndian (w n : ℕ) : List UInt8 :=
  (littleEndian w n).reverse

/-- The number with the given bytes, the most significant first. -/
def ofBigEndian (bytes : List UInt8) : ℕ :=
  ofLittleEndian bytes.reverse

@[simp] theorem length_littleEndian (w n : ℕ) : (littleEndian w n).length = w := by
  induction w generalizing n with
  | zero => rfl
  | succ w ih => rw [littleEndian, List.length_cons, ih]

@[simp] theorem length_bigEndian (w n : ℕ) : (bigEndian w n).length = w := by
  rw [bigEndian, List.length_reverse, length_littleEndian]

theorem ofLittleEndian_lt (bytes : List UInt8) : ofLittleEndian bytes < 256 ^ bytes.length := by
  induction bytes with
  | nil => simp [ofLittleEndian]
  | cons b bytes ih =>
    have hb := b.toNat_lt
    rw [ofLittleEndian, List.length_cons, pow_succ]
    omega

theorem ofLittleEndian_littleEndian {w n : ℕ} (h : n < 256 ^ w) :
    ofLittleEndian (littleEndian w n) = n := by
  induction w generalizing n with
  | zero =>
    have hn : n = 0 := by simpa using h
    rw [littleEndian, ofLittleEndian, hn]
  | succ w ih =>
    have hdiv : n / 256 < 256 ^ w := by
      apply Nat.div_lt_of_lt_mul
      rwa [pow_succ'] at h
    rw [littleEndian, ofLittleEndian, ih hdiv, UInt8.toNat_ofNat']
    omega

theorem littleEndian_ofLittleEndian (bytes : List UInt8) :
    littleEndian bytes.length (ofLittleEndian bytes) = bytes := by
  induction bytes with
  | nil => rfl
  | cons b bytes ih =>
    have hb := b.toNat_lt
    have hdiv : (b.toNat + 256 * ofLittleEndian bytes) / 256 = ofLittleEndian bytes := by omega
    have hmod : UInt8.ofNat (b.toNat + 256 * ofLittleEndian bytes) = b := by
      apply UInt8.toNat_inj.mp
      rw [UInt8.toNat_ofNat']
      omega
    rw [ofLittleEndian, List.length_cons, littleEndian, hdiv, hmod, ih]

theorem ofBigEndian_bigEndian {w n : ℕ} (h : n < 256 ^ w) : ofBigEndian (bigEndian w n) = n := by
  rw [ofBigEndian, bigEndian, List.reverse_reverse, ofLittleEndian_littleEndian h]

theorem bigEndian_ofBigEndian (bytes : List UInt8) :
    bigEndian bytes.length (ofBigEndian bytes) = bytes := by
  have h := littleEndian_ofLittleEndian bytes.reverse
  rw [List.length_reverse] at h
  rw [bigEndian, ofBigEndian, h, List.reverse_reverse]

/-! ## `uint32_t` -/

/-- The bytes that the assignment of `v` through a `uint32_t*` leaves in memory. -/
def storeWord (v : UInt32) : List UInt8 :=
  littleEndian 4 v.toNat

/-- The value of the `uint32_t` in four bytes of memory. -/
def loadWord (bytes : List UInt8) : UInt32 :=
  UInt32.ofNat (ofLittleEndian bytes)

def htonl (v : UInt32) : UInt32 :=
  loadWord (storeWord v).reverse

def ntohl (v : UInt32) : UInt32 :=
  loadWord (storeWord v).reverse

@[simp] theorem length_storeWord (v : UInt32) : (storeWord v).length = 4 :=
  length_littleEndian 4 _

theorem toNat_loadWord {bytes : List UInt8} (h : bytes.length = 4) :
    (loadWord bytes).toNat = ofLittleEndian bytes := by
  have hlt := ofLittleEndian_lt bytes
  rw [h] at hlt
  rw [loadWord, UInt32.toNat_ofNat']
  exact Nat.mod_eq_of_lt hlt

theorem storeWord_loadWord {bytes : List UInt8} (h : bytes.length = 4) :
    storeWord (loadWord bytes) = bytes := by
  rw [storeWord, toNat_loadWord h, ← h, littleEndian_ofLittleEndian]

/-! ## Words on the wire -/

/-- The four bytes of a word, the most significant first. -/
def toWire (v : UInt32) : List UInt8 :=
  bigEndian 4 v.toNat

/-- The word with the given four bytes, the most significant first. -/
def ofWire (bytes : List UInt8) : UInt32 :=
  UInt32.ofNat (ofBigEndian bytes)

@[simp] theorem length_toWire (v : UInt32) : (toWire v).length = 4 :=
  length_bigEndian 4 _

theorem toNat_ofWire {bytes : List UInt8} (h : bytes.length = 4) :
    (ofWire bytes).toNat = ofBigEndian bytes :=
  toNat_loadWord (by simpa using h)

@[simp] theorem ofWire_toWire (v : UInt32) : ofWire (toWire v) = v := by
  apply UInt32.toNat_inj.mp
  rw [toNat_ofWire (length_toWire v), toWire, ofBigEndian_bigEndian v.toNat_lt]

theorem toWire_ofWire {bytes : List UInt8} (h : bytes.length = 4) :
    toWire (ofWire bytes) = bytes := by
  rw [toWire, toNat_ofWire h, ← h, bigEndian_ofBigEndian]

/-- A word converted by `htonl` lies in memory as it goes on the wire. -/
theorem storeWord_htonl (v : UInt32) : storeWord (htonl v) = toWire v := by
  rw [htonl, storeWord_loadWord (by simp)]
  rfl

/-- `ntohl` makes of four bytes in memory the word they are on the wire. -/
theorem ntohl_loadWord {bytes : List UInt8} (h : bytes.length = 4) :
    ntohl (loadWord bytes) = ofWire bytes := by
  rw [ntohl, storeWord_loadWord h]
  rfl

end CExamples.C
