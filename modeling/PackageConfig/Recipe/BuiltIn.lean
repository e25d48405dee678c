import PackageConfig.Recipe

/-!
The recipe that is used when no manifest names another: a framework of
components, each with a switch of its own and a variable that reports it.
-/

namespace PackageConfig

namespace Recipe.BuiltIn

/-- The option that selects a shared build. -/
def linkageOption : String := "shared"

/-- What the usual driver names start with. -/
def lead : String := "AEON_"

/-- The components, in the order of their declarations. -/
def components : List String :=
  ["common", "compression", "crypto", "file_container", "fonts", "imaging", "logger", "math",
    "platform", "plugins", "ptree", "rdp", "reflection", "serial", "sockets", "streams",
    "testing", "tracelog", "unicode", "variant", "vulkan", "web"]

/-- The switch of a component. -/
def componentOption (component : String) : String :=
  "with_" ++ component

/-- The component that has back ends, and their switches. -/
def backends : String × List String :=
  ("platform", ["with_platform_glfw", "with_platform_sdl2"])

/-- The declarations: the linkage, position independent code, the two kinds of
tests, and the components, of which one has its back ends declared below it. -/
def declarations : List Declaration :=
  [.flag linkageOption false, .flag "fPIC" true, .flag "enable_unittests" true,
    .flag "enable_benchmarks" true] ++
    components.flatMap fun component =>
      .flag (componentOption component) true ::
        if component = backends.1 then
          backends.2.map fun backend => .flag backend true (some (componentOption component))
        else []

/-- A rule that removes an option on some operating systems. -/
def excludeOn (os : List Os) (option : String) : PlatformRule :=
  ⟨{ os }, .remove option⟩

/-- Shared builds are position independent without asking; some components do
not exist on some operating systems. -/
def pruneRules : PruneRules where
  optionRules := [⟨⟨linkageOption, .flag true⟩, .remove "fPIC"⟩]
  platformRules :=
    [excludeOn [.windows] "fPIC", excludeOn [.macos, .ios, .emscripten] "with_vulkan",
      excludeOn [.ios, .android, .emscripten] "with_serial",
      excludeOn [.emscripten] "with_plugins"]

/-- What each option, or pair of options, needs from outside. -/
def pinRules : List PinRule :=
  [⟨["enable_unittests"], [⟨"gtest", "1.13.0"⟩]⟩,
    ⟨["enable_benchmarks"], [⟨"benchmark", "1.8.3"⟩]⟩,
    ⟨["with_compression"], [⟨"zlib", "1.2.13"⟩]⟩,
    ⟨["with_fonts"], [⟨"freetype", "2.13.0"⟩]⟩,
    ⟨["with_imaging"], [⟨"libpng", "1.6.40"⟩, ⟨"libjpeg-turbo", "2.1.91"⟩]⟩,
    ⟨["with_platform", "with_platform_glfw"], [⟨"glfw", "3.3.8"⟩]⟩,
    ⟨["with_platform", "with_platform_sdl2"], [⟨"sdl", "2.28.3"⟩]⟩,
    ⟨["with_sockets"], [⟨"asio", "1.28.0"⟩]⟩,
    ⟨["with_vulkan"], [⟨"vulkan-memory-allocator", "3.0.1"⟩]⟩]

/-- One variable for each option; position independent code is also on in every
shared build. -/
def variableRules : VariableRules where
  lead := lead
  rules :=
    [⟨"build_shared_libs", .option linkageOption, some "BUILD_SHARED_LIBS"⟩,
      ⟨"position_independent_code", .anyOf [.sharedBuild, .option "fPIC"],
        some "CMAKE_POSITION_INDEPENDENT_CODE"⟩,
      ⟨"enable_testing", .option "enable_unittests", none⟩,
      ⟨"enable_benchmark", .option "enable_benchmarks", none⟩] ++
    components.map (fun component =>
      ⟨"component_" ++ component, .option (componentOption component), none⟩) ++
    [⟨"platform_backend_glfw", .option "with_platform_glfw", none⟩,
      ⟨"platform_backend_sdl2", .option "with_platform_sdl2", none⟩]

end Recipe.BuiltIn

/-- The built-in recipe, declared and assembled like any other. -/
def Recipe.builtIn : Except Fault Recipe := do
  let catalog ← Recipe.BuiltIn.declarations.foldlM Catalog.declare .empty
  Recipe.assemble catalog Recipe.BuiltIn.pruneRules Recipe.BuiltIn.pinRules
    Recipe.BuiltIn.variableRules Recipe.BuiltIn.linkageOption

end PackageConfig
