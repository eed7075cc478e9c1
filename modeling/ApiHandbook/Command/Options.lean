import ApiHandbook.Files.Path

/-!
# Command lines

What a command is told to do. How a command line is read, with the texts of its help and of a
refusal, is a matter of a library.
-/
namespace ApiHandbook.Command

open Files

structure Options where
  source : Option Path := none
  output : Option Path := none
  config : Option Path := none
  skipInvalid : Bool := false
  allObjects : Bool := false
  verbose : Bool := false
  deriving DecidableEq, Repr

/-- The paths that are given. -/
def Options.paths (options : Options) : List Path :=
  options.source.toList ++ options.output.toList ++ options.config.toList

def Options.hasZero (options : Options) : Bool := options.paths.any Path.hasZero

/-- What a command line comes to. -/
inductive Invocation where
  | run (options : Options) (named : options.hasZero = false)
  | help (text : String)
  /-- The arguments are wrong. -/
  | refused (text : String)
  /-- No file can have the name that is given. -/
  | zeroInPath
  deriving DecidableEq, Repr

end ApiHandbook.Command
