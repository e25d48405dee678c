import PackageConfig.Data
import PackageConfig.Text.Blank
import PackageConfig.Text.Case

/-!
The target of a build: its operating system, its compiler family and its
processor architecture. Each has one name of its own and may have aliases that
are understood where people write names by hand.
-/

namespace PackageConfig

/-! ## Operating systems -/

/-- The operating systems that rules can tell apart. -/
inductive Os where
  | windows
  | linux
  | macos
  | freebsd
  | android
  | ios
  | emscripten
  deriving DecidableEq, Inhabited

namespace Os

/-- All operating systems, in their fixed order. -/
def all : List Os :=
  [windows, linux, macos, freebsd, android, ios, emscripten]

/-- The name of an operating system. -/
def name : Os → String
  | windows => "windows"
  | linux => "linux"
  | macos => "macos"
  | freebsd => "freebsd"
  | android => "android"
  | ios => "ios"
  | emscripten => "emscripten"

/-- The operating system with exactly this name. -/
def named? (word : String) : Option Os :=
  all.find? fun os => os.name == word

/-- Read a name or alias in any letter case, blanks at its ends aside. -/
def parse? (s : String) : Option Os :=
  match Text.lowerAscii (Text.trim s) with
  | "darwin" => some macos
  | "win32" => some windows
  | word => named? word

end Os

/-! ## Compilers -/

/-- The compiler families that rules can tell apart. -/
inductive Compiler where
  | msvc
  | gcc
  | clang
  | appleClang
  deriving DecidableEq, Inhabited

namespace Compiler

/-- All compiler families, in their fixed order. -/
def all : List Compiler :=
  [msvc, gcc, clang, appleClang]

/-- The name of a compiler family. -/
def name : Compiler → String
  | msvc => "msvc"
  | gcc => "gcc"
  | clang => "clang"
  | appleClang => "apple-clang"

/-- The compiler family with exactly this name. -/
def named? (word : String) : Option Compiler :=
  all.find? fun compiler => compiler.name == word

/-- Read a name or alias in any letter case, blanks at its ends aside. -/
def parse? (s : String) : Option Compiler :=
  match Text.lowerAscii (Text.trim s) with
  | "visual studio" => some msvc
  | "cl" => some msvc
  | word => named? word

/-- The compiler that a plain installation of an operating system comes with. -/
def usualFor : Os → Compiler
  | .windows => msvc
  | .macos | .ios => appleClang
  | .linux => gcc
  | .freebsd | .android | .emscripten => clang

end Compiler

/-! ## Architectures -/

/-- The processor architectures that rules can tell apart. -/
inductive Arch where
  | x86
  | x86_64
  | armv7
  | armv8
  | wasm
  deriving DecidableEq, Inhabited

namespace Arch

/-- All architectures, in their fixed order. -/
def all : List Arch :=
  [x86, x86_64, armv7, armv8, wasm]

/-- The name of an architecture. -/
def name : Arch → String
  | x86 => "x86"
  | x86_64 => "x86_64"
  | armv7 => "armv7"
  | armv8 => "armv8"
  | wasm => "wasm"

/-- The architecture with exactly this name. -/
def named? (word : String) : Option Arch :=
  all.find? fun arch => arch.name == word

/-- Read a name or alias in any letter case, blanks at its ends aside. -/
def parse? (s : String) : Option Arch :=
  match Text.lowerAscii (Text.trim s) with
  | "aarch64" => some armv8
  | "arm64" => some armv8
  | "amd64" => some x86_64
  | "wasm32" => some wasm
  | word => named? word

end Arch

/-! ## Platforms -/

/-- The parts of a platform that are chosen by name. -/
inductive PlatformPart where
  | os
  | compiler
  | arch
  deriving DecidableEq, Inhabited

/-- What a build is made for. -/
structure Platform where
  os : Os
  compiler : Compiler
  arch : Arch
  deriving DecidableEq, Inhabited

namespace Platform

/-- A platform as one word: architecture, operating system, compiler. -/
def shown (p : Platform) : String :=
  s!"{p.arch.name}-{p.os.name}-{p.compiler.name}"

/-- A platform as data, each part by its name. -/
def toData (p : Platform) : Data :=
  .table [("os", .text p.os.name), ("compiler", .text p.compiler.name),
    ("arch", .text p.arch.name)]

/-- Read a platform from JSON; all three parts are named exactly. -/
def ofData? (d : Data) : Option Platform := do
  let record ← d.openRecord? .json ["os", "compiler", "arch"]
  let os ← record.required "os" (Data.named? .json Os.named?)
  let compiler ← record.required "compiler" (Data.named? .json Compiler.named?)
  let arch ← record.required "arch" (Data.named? .json Arch.named?)
  return ⟨os, compiler, arch⟩

end Platform

end PackageConfig
