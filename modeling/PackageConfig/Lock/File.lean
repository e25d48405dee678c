import PackageConfig.Lock.Layout

/-!
Lockfiles: the length of the header in four bytes, the header, and the lock.

Writing a lockfile fails only if those four bytes cannot hold the length. Reading a
lockfile checks the header before it touches the lock, and then that the lock has the
announced checksum and lengths. Bytes after the header, within its announced length,
and bytes after the lock are ignored.
-/

namespace PackageConfig

namespace Lock

/-! ## Writing -/

/-- A number in four bytes, the lowest first. -/
def fourBytes (n : UInt32) : List UInt8 :=
  [n.toUInt8, (n >>> 8).toUInt8, (n >>> 16).toUInt8, (n >>> 24).toUInt8]

/-- The bytes of a lockfile. -/
def toBytes (lock : Lock) : List UInt8 :=
  let header := Format.header.write (.ofLock lock)
  fourBytes header.length.toUInt32 ++ header ++ Format.lock.write lock

/-- Write a lockfile, unless the length of its header does not fit four bytes. -/
def encode (lock : Lock) : Except LockFault (List UInt8) :=
  if (Format.header.write (.ofLock lock)).length < UInt32.size then .ok lock.toBytes
  else .error .headerTooLarge

/-! ## Reading -/

/-- The number that four bytes hold, the lowest first. -/
def numberOfFour (a b c d : UInt8) : Nat :=
  a.toNat + 256 * (b.toNat + 256 * (c.toNat + 256 * d.toNat))

/-- The header bytes and the body of a lockfile. -/
def split : List UInt8 → Except LockFault (List UInt8 × List UInt8)
  | a :: b :: c :: d :: rest =>
    let length := numberOfFour a b c d
    let header := rest.take length
    if header.length = length then .ok (header, rest.drop length) else .error .headerCut
  | _ => .error .tooShort

/-- Read a value from the front of some bytes and ignore what follows it. -/
def decode {α : Type} (format : Format α) (wrap : DecodeFault → LockFault)
    (bytes : List UInt8) : Except LockFault α :=
  match format.read bytes with
  | .ok (value, _) => .ok value
  | .error fault => .error (wrap fault)

/-- Read a lockfile. -/
def ofBytes (bytes : List UInt8) : Except LockFault Lock := do
  let (headerBytes, body) ← split bytes
  let header ← decode Format.header .header headerBytes
  header.check
  let lock ← decode Format.lock .body body
  if lock.checksum ≠ header.checksum then
    throw (.checksum header.checksum lock.checksum)
  if !header.counts lock then throw .counts
  return lock

end Lock

namespace Resolution

/-- The bytes of the lockfile of a resolution. -/
def lockBytes (r : Resolution) : List UInt8 :=
  (Lock.ofResolution r).toBytes

/-- Write the lockfile of a resolution. -/
def lockFile (r : Resolution) : Except Fault (List UInt8) :=
  (Lock.ofResolution r).encode.mapError .invalidLock

/-- Whether a lockfile locks a resolution; bytes that are no lockfile are a fault. -/
def isLockedBy (r : Resolution) (bytes : List UInt8) : Except LockFault Bool := do
  let lock ← Lock.ofBytes bytes
  return lock = .ofResolution r

end Resolution

end PackageConfig
