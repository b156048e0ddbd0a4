import Flipbook.CommandLine.Arguments
import Flipbook.Config.Load
import Flipbook.Conversion.Convert

namespace Flipbook.CommandLine

open Conversion

inductive ProgramError
  | load (error : LoadError)
  | config (error : ConfigError)
  | conversion (failure : Failure)
  | report

/-- What is said of the error; nothing of one that is not reported. -/
def ProgramError.message? : ProgramError → Option Text
  | load error => error.message?
  | config error => error.message?
  | conversion failure => failure.message?
  | report => none

def exitCode {α : Type} : Except ProgramError α → Nat
  | .ok _ => 0
  | .error _ => 1

variable {m : Type → Type} [Monad m] [FileSystem m] [Yaml.Library] [Reflection] [Sheet.Writer]

def Options.configuration (options : Options) : ExceptT LoadError m Configuration :=
  return options.override (← Configuration.load options.config)

/-- Converts a file and makes a report of it. Memory and stack are taken to be enough. -/
def run (arguments : Arguments) : ExceptT ProgramError m Report := do
  let config ← ExceptT.adapt .load arguments.configuration
  let settings ← ExceptT.mk (pure ((Settings.ofConfiguration config).mapError .config))
  let report ← ExceptT.adapt .conversion
    (convert settings (fun _ => pure ()) arguments.input arguments.outputDirectory)
  if report.integers.all Text.isWritable then return report else throw .report

end Flipbook.CommandLine
