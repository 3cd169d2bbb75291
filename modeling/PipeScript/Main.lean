-- The command line program. Everything it decides is decided in `PipeScript.Cli`; here the disk
-- is read and written, and the report is printed.
import PipeScript.Cli.Run

namespace PipeScript.Cli

/-- Tells in words why the disk refused. -/
def describeFailure : IO.Error → String
  | .noFileOrDirectory .. => FileError.missing.message
  | .inappropriateType _ 21 _ => FileError.isDirectory.message
  | .inappropriateType .. => FileError.notDirectory.message
  | .invalidArgument _ 22 _ => FileError.badPath.message
  | .invalidArgument .. => FileError.nameTooLong.message
  | e => toString e

/-- Runs an action on the disk and keeps its failure as words. -/
def attempt {α : Type} (action : IO α) : IO (Except String α) := do
  try return .ok (← action)
  catch e => return .error (describeFailure e)

/-- Everybody may read and run a script; its owner may also change it. -/
def scriptRights : IO.FileRight where
  user := { read := true, write := true, execution := true }
  group := { read := true, execution := true }
  other := { read := true, execution := true }

/-- The storage that is the disk. -/
def disk : Storage IO where
  read path := do
    match ← attempt (IO.FS.readBinFile path) with
    | .error reason => return .error reason
    | .ok bytes =>
      match String.fromUTF8? bytes with
      | some text => return .ok text
      | none => return .error "stream did not contain valid UTF-8"
  writeExecutable path content := attempt do
    IO.FS.writeFile path content
    IO.setAccessRights path scriptRights

def usage : String :=
  "Usage: pipescript [OPTIONS] <PIPELINE>\n\n"
    ++ "Compiles a pipeline that an editor exported into a shell script.\n\n"
    ++ "  -c, --config <FILE>         read settings from a file\n"
    ++ "  -o, --output <FILE>         write the script to a file that can be run\n"
    ++ "      --list-commands         list the commands by category\n"
    ++ "      --shebang <SHELL>       bash, sh or zsh\n"
    ++ "      --no-set-e              do not stop at errors\n"
    ++ "      --no-set-u              do not stop at unset variables\n"
    ++ "      --no-pipefail           take the exit code of the last command of a pipe\n"
    ++ "      --debug                 trace every command\n"
    ++ "      --description <TEXT>    the description in the header\n"
    ++ "      --author <TEXT>         the author in the header\n"
    ++ "      --version-tag <TEXT>    the version in the header\n"
    ++ "  -v, --verbose               accepted; nothing is logged\n"
    ++ "  -h, --help                  print this text\n"
    ++ "  -V, --version               print the version\n"

end PipeScript.Cli

open PipeScript in
def main (args : List String) : IO UInt32 := do
  match Cli.Arguments.ofList args with
  | .error .help =>
    IO.print Cli.usage
    return 0
  | .error .version =>
    IO.println "pipescript 0.1.0"
    return 0
  | .error .refused =>
    IO.eprint Cli.usage
    return 2
  | .ok arguments =>
    let report ← Cli.run Cli.disk arguments
    IO.print report.output
    IO.eprint report.errors
    return report.exitCode.toUInt32
