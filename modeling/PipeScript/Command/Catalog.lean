-- The commands that are known from the start, in the order in which they are listed.
import PipeScript.Command.Registry

namespace PipeScript

namespace Command

namespace Catalog

open ParamSpec (text file boolean select)

/-! ## Text -/

def grep : Definition :=
  .withPipes (.withExamples (.withParams
    (.make "grep" "grep" .text "Search for patterns in text")
    [((text "pattern" "Pattern").asRequired.withPlaceholder "search term").describe
        "Regular expression or literal string to search for",
      boolean "ignoreCase" "Ignore case (-i)" "-i",
      (boolean "invertMatch" "Invert match (-v)" "-v").describe "Select non-matching lines",
      boolean "extendedRegex" "Extended regex (-E)" "-E"])
    ["grep 'error' log.txt", "grep -i 'warning' file.log"]) true true

def sed : Definition :=
  .withPipes (.withExamples (.withParams
    (.make "sed" "sed" .text "Stream editor for filtering and transforming text")
    [((text "expression" "Expression").singleQuoted.asRequired.withPlaceholder
        "s/old/new/g").describe "sed command expression",
      (boolean "inPlace" "In-place edit (-i)" "-i").asAdvanced.describe "Edit file in place"])
    ["sed 's/error/ERROR/g'"]) true true

def awk : Definition :=
  .withPipes (.withExamples (.withParams
    (.make "awk" "awk" .text "Pattern-directed scanning and processing language")
    [((text "program" "Program").singleQuoted.asRequired.withPlaceholder
        "\x7bprint $1\x7d").describe "awk program or script",
      ((text "fieldSeparator" "Field separator (-F)").withFlag
        "-F \x7b\x7d").asAdvanced.withPlaceholder ":"])
    ["awk '\x7bprint $1\x7d'", "awk -F: '\x7bprint $1\x7d'"]) true true

def cut : Definition :=
  .withPipes (.withExamples (.withParams
    (.make "cut" "cut" .text "Remove sections from each line of files")
    [(((text "fields" "Fields").withFlag "-f \x7b\x7d").asRequired.withPlaceholder
        "1,3,5").describe "Field range or comma-separated list",
      (((text "delimiter" "Delimiter (-d)").withFlag "-d \x7b\x7d").withPlaceholder
        ":").withDefault "\t"])
    ["cut -d: -f1,3", "cut -c1-10"]) true true

def sort : Definition :=
  .withPipes (.withExamples (.withParams
    (.make "sort" "sort" .text "Sort lines of text files")
    [boolean "reverse" "Reverse (-r)" "-r",
      boolean "unique" "Unique (-u)" "-u",
      boolean "numeric" "Numeric sort (-n)" "-n"])
    ["sort file.txt", "sort -rn numbers.txt"]) true true

def uniq : Definition :=
  .withPipes (.withExamples (.withParams
    (.make "uniq" "uniq" .text "Report or omit repeated lines")
    [boolean "count" "Count occurrences (-c)" "-c",
      boolean "duplicates" "Only duplicates (-d)" "-d"])
    ["uniq file.txt", "uniq -c file.txt"]) true true

def tr : Definition :=
  .withPipes (.withExamples (.withParams
    (.make "tr" "tr" .text "Translate or delete characters")
    [(text "set1" "Replace from").asRequired.withPlaceholder "a-z",
      ((text "set2" "Replace to").withPlaceholder "A-Z").describe
        "Leave empty to delete the characters of the first set"])
    ["tr 'a-z' 'A-Z'", "tr -d ' '"]) true true

/-! ## Files -/

def find : Definition :=
  .withPipes (.withExamples (.withParams
    (.make "find" "find" .files "Search for files in a directory hierarchy")
    [((file "path" "Start path").withPlaceholder ".").withDefault ".",
      ((text "name" "Name pattern").withFlag "-name \x7b\x7d").withPlaceholder "*.txt",
      ((select "type" "Type (-type)" ["f", "d", "l"]).withFlag
        "-type \x7b\x7d").asAdvanced.describe "file, directory, or symlink"])
    ["find . -name '*.log'", "find /home -type f -name 'test*'"]) false true

def ls : Definition :=
  .withPipes (.withExamples (.withParams
    (.make "ls" "ls" .files "List directory contents")
    [((file "path" "Directory").withPlaceholder ".").withDefault ".",
      boolean "long" "Long format (-l)" "-l",
      boolean "all" "Show hidden (-a)" "-a",
      boolean "recursive" "Recursive (-R)" "-R"])
    ["ls -la", "ls -R /path"]) false true

def cp : Definition :=
  .withPipes (.withExamples (.withParams
    (.make "cp" "cp" .files "Copy files or directories")
    [(file "source" "Source").asRequired,
      (file "destination" "Destination").asRequired,
      boolean "recursive" "Recursive (-r)" "-r"])
    ["cp file.txt backup.txt", "cp -r dir/ backup/"]) false false

def mv : Definition :=
  .withPipes (.withExamples (.withParams
    (.make "mv" "mv" .files "Move or rename files")
    [(file "source" "Source").asRequired,
      (file "destination" "Destination").asRequired,
      boolean "force" "Force (-f)" "-f"])
    ["mv old.txt new.txt", "mv file.txt /archive/"]) false false

def rm : Definition :=
  .withPipes (.withExamples (.withParams
    (.make "rm" "rm" .files "Remove files or directories")
    [(file "target" "Target file/directory").asRequired,
      boolean "recursive" "Recursive (-r)" "-r",
      boolean "force" "Force (-f)" "-f"])
    ["rm file.txt", "rm -rf directory/"]) false false

def chmod : Definition :=
  .withPipes (.withExamples (.withParams
    (.make "chmod" "chmod" .files "Change file mode bits")
    [(text "mode" "Mode").asRequired.withPlaceholder "755",
      (file "target" "Target").asRequired])
    ["chmod 755 script.sh", "chmod +x file.sh"]) false false

/-! ## Network -/

def curl : Definition :=
  .withPipes (.withExamples (.withParams
    (.make "curl" "curl" .network "Transfer data from or to a server")
    [(text "url" "URL").asRequired.withPlaceholder "https://example.com",
      ((select "method" "Method (-X)" ["GET", "POST", "PUT", "DELETE", "PATCH"]).withFlag
        "-X \x7b\x7d").withDefault "GET",
      ((text "headers" "Headers (-H)").withFlag "-H \x7b\x7d").asAdvanced.withPlaceholder
        "Content-Type: application/json",
      ((text "data" "Data (-d)").withFlag "-d \x7b\x7d").singleQuoted.asAdvanced])
    ["curl https://api.example.com", "curl -X POST -d '\x7b\x7d'"]) false true

def wget : Definition :=
  .withPipes (.withExamples (.withParams
    (.make "wget" "wget" .network "Download files from the web")
    [(text "url" "URL").asRequired,
      ((file "output" "Output file (-O)").withFlag "-O \x7b\x7d").asAdvanced])
    ["wget https://example.com/file.zip"]) false true

def ssh : Definition :=
  .withPipes (.withExamples (.withParams
    (.make "ssh" "ssh" .network "Secure shell remote login")
    [(text "host" "Host").asRequired.withPlaceholder "user@hostname",
      (text "command" "Command").singleQuoted.asAdvanced])
    ["ssh user@host", "ssh user@host 'ls /home'"]) false true

def scp : Definition :=
  .withPipes (.withExamples (.withParams
    (.make "scp" "scp" .network "Secure copy (remote file copy program)")
    [(text "source" "Source").asRequired,
      (text "destination" "Destination").asRequired])
    ["scp file.txt user@host:/path/", "scp -r dir/ user@host:"]) false false

/-! ## System -/

def ps : Definition :=
  .withPipes (.withExamples (.withParams
    (.make "ps" "ps" .system "Report a snapshot of current processes")
    [boolean "aux" "Show all (-aux)" "aux"])
    ["ps aux", "ps aux | grep java"]) false true

def top : Definition :=
  .withPipes (.withExamples (.withParams
    (.make "top" "top" .system "Display Linux processes")
    [(boolean "batch" "Batch mode (-b)" "-b").asAdvanced])
    ["top -b"]) false true

def df : Definition :=
  .withPipes (.withExamples (.withParams
    (.make "df" "df" .system "Report file system disk space usage")
    [boolean "human" "Human readable (-h)" "-h"])
    ["df -h"]) false true

def du : Definition :=
  .withPipes (.withExamples (.withParams
    (.make "du" "du" .system "Estimate file space usage")
    [boolean "human" "Human readable (-h)" "-h",
      boolean "summarize" "Summarize (-s)" "-s"])
    ["du -sh /home", "du -h /path"]) false true

/-! ## Control flow -/

def conditional : Definition :=
  .withExamples (.withParams
    (.make "if" "if/then/else" .control "Conditional block")
    [(text "condition" "Condition").asRequired.withPlaceholder "[ -f file.txt ]"])
    ["[ -f file.txt ]", "[ $var -eq 0 ]"]

def forLoop : Definition :=
  .withExamples (.withParams
    (.make "for" "for loop" .control "Loop over values")
    [(text "variable" "Variable").asRequired.withPlaceholder "i",
      (text "values" "Values/Range").asRequired.withPlaceholder "1 2 3 or \x7b1..10\x7d"])
    ["for i in 1 2 3", "for file in *.txt"]

def whileLoop : Definition :=
  .withExamples (.withParams
    (.make "while" "while loop" .control "Loop while condition is true")
    [(text "condition" "Condition").asRequired.withPlaceholder "[ $i -lt 10 ]"])
    ["[ $i -lt 10 ]"]

/-- Every built-in command. -/
def commands : List Definition :=
  [grep, sed, awk, cut, sort, uniq, tr, find, ls, cp, mv, rm, chmod, curl, wget, ssh, scp, ps,
    top, df, du, conditional, forLoop, whileLoop]

end Catalog

/-- The registry of the built-in commands. -/
def Registry.builtin : Registry := .ofList Catalog.commands

end Command

end PipeScript
