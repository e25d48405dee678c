import PackageConfig.Resolution

/-!
A lock is a resolution in the form in which it is kept: the platform in one
word, and three lists in the order of their names. Locks that are read from
bytes need not be in that order.
-/

namespace PackageConfig

/-- What a lockfile pins. -/
structure Lock where
  platform : String
  shared : Bool
  options : List (String × State)
  pins : List Pin
  table : List (String × Value)
  deriving DecidableEq, Inhabited

/-- The lock of a resolution. -/
def Lock.ofResolution (r : Resolution) : Lock where
  platform := r.platform.shown
  shared := r.linkage.isShared
  options := r.config.states.entries
  pins := r.pins.toList
  table := r.table.entries

end PackageConfig
