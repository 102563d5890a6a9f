import DvbHost.Listing.Lines
import DvbHost.Listing.PidArgument

/-!
# The listing command

What its arguments ask for. Flags and options may stand anywhere; the first argument that is
neither is the path, and what follows it is ignored.
-/

namespace DvbHost.Listing

set_option autoImplicit false

structure Command where
  /-- The input is a stream of packets, not sections one after the other. -/
  stream : Bool
  pid : Option Nat
  options : Options
  path : String

inductive ArgumentError where
  | pidWithoutValue
  | badPid (text : String) (error : NumberError)
  | noPath

def ArgumentError.message : ArgumentError → String
  | pidWithoutValue => "the '--pid' option doesn't have an associated value"
  | badPid text error => "failed to parse '" ++ text ++ "': " ++ error.message
  | noPath => "free-standing argument is missing"

namespace Command

/-- Whether a flag is among the arguments, and the arguments without it. -/
def takeFlag (names args : List String) : Bool × List String :=
  (args.any names.contains, args.filter fun a => !names.contains a)

/-- The value behind `--pid`, and the arguments without both. -/
def takePid : List String → Except ArgumentError (Option String × List String)
  | [] => .ok (none, [])
  | ["--pid"] => .error .pidWithoutValue
  | "--pid" :: value :: args => .ok (some value, args)
  | arg :: args => (takePid args).map fun p => (p.1, arg :: p.2)

def pidOf : Option String → Except ArgumentError (Option Nat)
  | none => .ok none
  | some text =>
    match pidArgument text with
    | .ok n => .ok (some n)
    | .error e => .error (.badPid text e)

def ofArguments (args : List String) : Except ArgumentError Command := do
  let (stream, args) := takeFlag ["--ts"] args
  let (pid, args) ← takePid args
  let pid ← pidOf pid
  let (verbose, args) := takeFlag ["-v", "--verbose"] args
  let (noCrc, args) := takeFlag ["--no-crc"] args
  match args with
  | [] => throw .noPath
  | path :: _ => return ⟨stream, pid, ⟨!noCrc, verbose⟩, path⟩

/-- What is listed for an input, each entry to be ended by a line feed. -/
def entries (c : Command) (input : Bytes) : List String :=
  if c.stream then entriesOfStream c.options c.pid input else entriesOfSections c.options input

def help : String := String.join
  ["セクションを解析して表示するコマンド\n\n",
   "USAGE:\n  dump [OPTIONS] [PATH]\n\n",
   "FLAGS:\n",
   "  -h, --help      このヘルプを表示する\n",
   "  -v, --verbose   テーブルの内容をすべて表示する\n",
   "  --ts            入力を188バイトのTSパケット列として扱う\n",
   "  --no-crc        CRCを検証しない\n\n",
   "OPTIONS:\n",
   "  --pid [PID]     TSの場合に処理するPID。未指定の場合はすべてのPIDを処理する。\n\n",
   "ARGS:\n",
   "  <PATH>          セクションを連結したファイル、またはTSファイルのパス\n"]

end Command

end DvbHost.Listing
