import ByteMachine.Address
import ByteMachine.Image.LoadError
import ByteMachine.LittleEndian

/-!
The 28 bytes in front of an image: a signature, two half words and five words, low bytes first.
-/

namespace ByteMachine

structure Header where
  signature : Vector UInt8 4
  version : UInt16
  flags : UInt16
  /-- Where the body goes. -/
  head : Address
  /-- Where execution begins. -/
  entry : Address
  data : Address
  symbols : Address
  /-- The length of the whole file. -/
  fileSize : UInt32
  deriving DecidableEq

namespace Header

def size : Nat := 28

def defaultSignature : Vector UInt8 4 := #v[0x4d, 0x48, 0x46, 0x42]

def formatVersion : UInt16 := 1

/-- Only the first three bytes of the signature count. -/
def IsSigned (h : Header) : Prop := h.signature.toList.take 3 = defaultSignature.toList.take 3

instance (h : Header) : Decidable h.IsSigned := inferInstanceAs (Decidable (_ = _))

/-- The body length that the file size leaves. -/
def bodySize (h : Header) : Nat := h.fileSize.toNat - size

/-- The header of a body of `n` bytes. -/
def ofBody (head entry : Address) (n : Nat) : Header where
  signature := defaultSignature
  version := formatVersion
  flags := 0
  head := head
  entry := entry
  data := 0
  symbols := 0
  fileSize := Address.advance 0 (size + n)

def encode (h : Header) : List UInt8 :=
  h.signature.toList ++ LittleEndian.encode 2 h.version.toNat
    ++ LittleEndian.encode 2 h.flags.toNat ++ LittleEndian.encode 4 h.head.toNat
    ++ LittleEndian.encode 4 h.entry.toNat ++ LittleEndian.encode 4 h.data.toNat
    ++ LittleEndian.encode 4 h.symbols.toNat ++ LittleEndian.encode 4 h.fileSize.toNat

@[simp] theorem length_encode (h : Header) : h.encode.length = size := by
  simp [encode, size]

/-- The number in `width` bytes from `start`. -/
def field (bytes : List UInt8) (start width : Nat) : Nat :=
  LittleEndian.decode ((bytes.drop start).take width)

def decode (bytes : List UInt8) : Header where
  signature := #v[bytes.getD 0 0, bytes.getD 1 0, bytes.getD 2 0, bytes.getD 3 0]
  version := UInt16.ofNat (field bytes 4 2)
  flags := UInt16.ofNat (field bytes 6 2)
  head := UInt32.ofNat (field bytes 8 4)
  entry := UInt32.ofNat (field bytes 12 4)
  data := UInt32.ofNat (field bytes 16 4)
  symbols := UInt32.ofNat (field bytes 20 4)
  fileSize := UInt32.ofNat (field bytes 24 4)

/-- The header of a file, whatever follows it. -/
def ofFile (file : Array UInt8) : Except LoadError Header :=
  if file.size < size then .error (.malformedHeader file.size)
  else .ok (decode (file.extract 0 size).toList)

end Header

end ByteMachine
