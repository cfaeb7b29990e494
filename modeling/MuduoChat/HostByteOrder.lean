import Mathlib.Data.Nat.Basic
import Mathlib.Tactic.Ring

/-!
# Integers in memory and on the wire

A machine stores an integer as bytes in its own order; the wire order is big
endian.  Reading a word through a pointer and then converting it from network
order gives the big-endian value on either kind of host, and writing is the
mirror image.  The results below hold for words of any whole number of bytes,
on any host; 32-bit words have names of their own.
-/

namespace MuduoChat

/-- The number spelled by bytes, least significant first. -/
def leValue : List UInt8 → ℕ
  | [] => 0
  | byte :: rest => byte.toNat + 256 * leValue rest

/-- The low `count` bytes of a number, least significant first. -/
def leBytes (value : ℕ) : ℕ → List UInt8
  | 0 => []
  | count + 1 => UInt8.ofNat (value % 256) :: leBytes (value / 256) count

@[simp] theorem length_leBytes (value count : ℕ) :
    (leBytes value count).length = count := by
  induction count generalizing value with
  | zero => rfl
  | succ count ih => simp [leBytes, ih]

theorem leValue_lt (bytes : List UInt8) :
    leValue bytes < 256 ^ bytes.length := by
  induction bytes with
  | nil => simp [leValue]
  | cons byte rest ih =>
      have hbyte : byte.toNat < 256 := byte.toNat_lt
      simp only [leValue, List.length_cons, pow_succ]
      omega

theorem leValue_leBytes (value count : ℕ) :
    leValue (leBytes value count) = value % 256 ^ count := by
  induction count generalizing value with
  | zero => simp [leBytes, leValue, Nat.mod_one]
  | succ count ih =>
      have hbyte : (UInt8.ofNat (value % 256)).toNat = value % 256 := by
        simp
      simp only [leBytes, leValue, ih, hbyte]
      rw [pow_succ', Nat.mod_mul]

theorem leBytes_leValue (bytes : List UInt8) :
    leBytes (leValue bytes) bytes.length = bytes := by
  induction bytes with
  | nil => rfl
  | cons byte rest ih =>
      have hbyte : byte.toNat < 256 := byte.toNat_lt
      have hmod : (byte.toNat + 256 * leValue rest) % 256 = byte.toNat := by
        omega
      have hdiv : (byte.toNat + 256 * leValue rest) / 256 = leValue rest := by
        omega
      simp only [leValue, List.length_cons, leBytes, hmod, hdiv, ih]
      simp

/-! ## Network order -/

section Network

variable {width count : ℕ}

/-- The word spelled by bytes in network order. -/
def bigEndian (width : ℕ) (bytes : List UInt8) : BitVec width :=
  BitVec.ofNat width (leValue bytes.reverse)

def networkBytes (count : ℕ) (word : BitVec width) : List UInt8 :=
  (leBytes word.toNat count).reverse

@[simp] theorem length_networkBytes (count : ℕ) (word : BitVec width) :
    (networkBytes count word).length = count := by
  simp [networkBytes]

theorem pow_width (hwidth : width = 8 * count) : 2 ^ width = 256 ^ count := by
  rw [hwidth, pow_mul]
  rfl

theorem leValue_lt_pow {bytes : List UInt8} (hlength : bytes.length = count)
    (hwidth : width = 8 * count) : leValue bytes < 2 ^ width := by
  rw [pow_width hwidth, ← hlength]
  exact leValue_lt bytes

theorem toNat_bigEndian {bytes : List UInt8} (hlength : bytes.length = count)
    (hwidth : width = 8 * count) :
    (bigEndian width bytes).toNat = leValue bytes.reverse := by
  have hreverse : bytes.reverse.length = count := by
    rw [List.length_reverse, hlength]
  rw [bigEndian, BitVec.toNat_ofNat]
  exact Nat.mod_eq_of_lt (leValue_lt_pow hreverse hwidth)

theorem bigEndian_networkBytes (hwidth : width = 8 * count)
    (word : BitVec width) :
    bigEndian width (networkBytes count word) = word := by
  have hlt : word.toNat < 256 ^ count := by
    rw [← pow_width hwidth]
    exact word.isLt
  rw [bigEndian, networkBytes, List.reverse_reverse, leValue_leBytes,
    Nat.mod_eq_of_lt hlt, BitVec.ofNat_toNat, BitVec.setWidth_eq]

theorem networkBytes_bigEndian {bytes : List UInt8}
    (hlength : bytes.length = count) (hwidth : width = 8 * count) :
    networkBytes count (bigEndian width bytes) = bytes := by
  have hreverse : leBytes (leValue bytes.reverse) count = bytes.reverse := by
    rw [← hlength, ← List.length_reverse]
    exact leBytes_leValue bytes.reverse
  rw [networkBytes, toNat_bigEndian hlength hwidth, hreverse,
    List.reverse_reverse]

end Network

def bigEndian32 (bytes : List UInt8) : BitVec 32 :=
  bigEndian 32 bytes

def networkBytes32 (word : BitVec 32) : List UInt8 :=
  networkBytes 4 word

@[simp] theorem length_networkBytes32 (word : BitVec 32) :
    (networkBytes32 word).length = 4 :=
  length_networkBytes 4 word

theorem bigEndian32_networkBytes32 (word : BitVec 32) :
    bigEndian32 (networkBytes32 word) = word :=
  @bigEndian_networkBytes 32 4 rfl word

/-! ## The order of the host -/

inductive ByteOrder where
  | little
  | big
  deriving DecidableEq

namespace ByteOrder

section AnyWidth

variable {width count : ℕ}

def load (width : ℕ) : ByteOrder → List UInt8 → BitVec width
  | .little, bytes => BitVec.ofNat width (leValue bytes)
  | .big, bytes => bigEndian width bytes

def store (count : ℕ) : ByteOrder → BitVec width → List UInt8
  | .little, word => leBytes word.toNat count
  | .big, word => networkBytes count word

/-- Reversing the bytes of a word, which is what both directions of the
network conversion do on a little-endian host. -/
def swap (count : ℕ) (word : BitVec width) : BitVec width :=
  bigEndian width (leBytes word.toNat count)

def networkToHost (count : ℕ) : ByteOrder → BitVec width → BitVec width
  | .little, word => swap count word
  | .big, word => word

def hostToNetwork (count : ℕ) : ByteOrder → BitVec width → BitVec width
  | .little, word => swap count word
  | .big, word => word

theorem networkToHost_load (host : ByteOrder) {bytes : List UInt8}
    (hlength : bytes.length = count) (hwidth : width = 8 * count) :
    host.networkToHost count (host.load width bytes) =
      bigEndian width bytes := by
  cases host with
  | little =>
      have hlt := leValue_lt_pow hlength hwidth
      have hbytes : leBytes (leValue bytes) count = bytes := by
        rw [← hlength]
        exact leBytes_leValue bytes
      simp only [networkToHost, load, swap, BitVec.toNat_ofNat,
        Nat.mod_eq_of_lt hlt, hbytes]
  | big => rfl

theorem store_hostToNetwork (host : ByteOrder) (hwidth : width = 8 * count)
    (word : BitVec width) :
    host.store count (host.hostToNetwork count word) =
      networkBytes count word := by
  cases host with
  | little =>
      have hlength : (leBytes word.toNat count).length = count :=
        length_leBytes word.toNat count
      have hvalue : (swap count word).toNat =
          leValue (networkBytes count word) :=
        toNat_bigEndian hlength hwidth
      simp only [store, hostToNetwork, hvalue]
      have hbytes := leBytes_leValue (networkBytes count word)
      rwa [length_networkBytes] at hbytes
  | big => rfl

end AnyWidth

def load32 (host : ByteOrder) (bytes : List UInt8) : BitVec 32 :=
  host.load 32 bytes

def store32 (host : ByteOrder) (word : BitVec 32) : List UInt8 :=
  host.store 4 word

def networkToHost32 (host : ByteOrder) (word : BitVec 32) : BitVec 32 :=
  host.networkToHost 4 word

def hostToNetwork32 (host : ByteOrder) (word : BitVec 32) : BitVec 32 :=
  host.hostToNetwork 4 word

theorem networkToHost32_load32 (host : ByteOrder)
    {bytes : List UInt8} (hlength : bytes.length = 4) :
    host.networkToHost32 (host.load32 bytes) = bigEndian32 bytes :=
  host.networkToHost_load hlength rfl

theorem store32_hostToNetwork32 (host : ByteOrder) (word : BitVec 32) :
    host.store32 (host.hostToNetwork32 word) = networkBytes32 word :=
  @store_hostToNetwork 32 4 host rfl word

end ByteOrder

end MuduoChat
