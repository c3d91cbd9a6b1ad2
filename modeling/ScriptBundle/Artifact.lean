import ScriptBundle.BuildOptions
import ScriptBundle.Downlevel
import ScriptBundle.Resolution
/-! The artifact: a header comment, then every unit between a banner and an empty line. If asked
for, the whole text is downleveled at the end. -/
namespace ScriptBundle

structure BuildInfo where
  title : String
  version : String
  date : String
  buildType : BuildType
  moduleCount : Nat
  includeTests : Bool
  deriving DecidableEq, Repr

namespace BuildInfo

def rule : String := String.ofList (List.replicate 76 '=')

def headerLines (info : BuildInfo) : List String :=
  ["/**",
   " * " ++ rule,
   " * " ++ info.title ++ " - CONSOLIDATED BUILD",
   " * " ++ rule,
   " *",
   " * This file is AUTO-GENERATED by gsbundle",
   " * DO NOT EDIT THIS FILE DIRECTLY",
   " *",
   " * To make changes:",
   " * 1. Edit individual module files (e.g., Constants.gs, Code.gs)",
   " * 2. Run: gsbundle",
   " * 3. This file will be regenerated automatically",
   " *",
   " * Build Info:",
   " * - Version: " ++ info.version,
   " * - Build Date: " ++ info.date,
   " * - Build Type: " ++ info.buildType.label,
   " * - Modules: " ++ Nat.repr info.moduleCount ++ " files",
   " * - Tests Included: " ++ (if info.includeTests then "Yes" else "No"),
   " *",
   " * " ++ rule,
   " */",
   ""]

def header (info : BuildInfo) : String := String.join (info.headerLines.map (· ++ "\n"))

end BuildInfo

namespace SourceUnit

def rule : String := String.ofList (List.replicate 80 '=')

def bannerLines (name : String) : List String :=
  ["", "// " ++ rule, "// MODULE: " ++ name, "// Source: " ++ name, "// " ++ rule, ""]

def render (unit : SourceUnit) : String :=
  String.join ((bannerLines unit.name).map (· ++ "\n")) ++ unit.text ++ "\n\n"

end SourceUnit

structure IncludedUnit where
  name : String
  ordinal : Nat
  bytes : Nat
  deriving DecidableEq, Repr

structure Artifact where
  name : String
  text : String
  units : List IncludedUnit
  lowered : Nat
  deriving DecidableEq, Repr

namespace Artifact

def size (a : Artifact) : Nat := a.text.utf8ByteSize

def isEmpty (a : Artifact) : Bool := a.size = 0

def plainText (info : BuildInfo) (units : List SourceUnit) : String :=
  info.header ++ String.join (units.map SourceUnit.render)

def compose (name : String) (downlevel : Bool) (info : BuildInfo) (units : List SourceUnit) : Artifact :=
  let plain := plainText info units
  let final := if downlevel then Downlevel.applyAll [Downlevel.lower] plain else ⟨plain, 0⟩
  ⟨name, final.text, units.map fun unit => ⟨unit.name, unit.ordinal, unit.size⟩, final.count⟩

end Artifact
end ScriptBundle
