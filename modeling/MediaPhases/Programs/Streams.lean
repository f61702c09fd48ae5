import MediaPhases.Programs.Shell

/-!
# Streams of commands

Where the streams of a command go to and come from: files, other streams, or a document that
stands in the script.
-/

namespace MediaPhases.Shell

open Script

/-- Brings a stream to a channel, or closes it. -/
def direct (s : Shell) (stream : Nat) (channel : Option Channel) : Shell :=
  let others := s.channels.filter fun p => p.1 ≠ stream
  { s with channels :=
    match channel with
    | some channel => (stream, channel) :: others
    | none => others }

/-- Brings a stream to a new source. -/
def feed (s : Shell) (stream : Nat) (content : List UInt8) : Shell :=
  { s with sources := s.sources ++ [content] }.direct stream (some (.source s.sources.length))

/-- Brings some streams back to where they were before.  Of the sources those are kept that there
were before and those to which streams still go. -/
def putStreams (outer : Shell) (streams : List Nat) (s : Shell) : Shell :=
  let t := streams.foldl (fun t stream => t.direct stream (outer.channels.lookup stream)) s
  let used := t.channels.foldl (fun n c =>
    match c.2 with
    | .source k => Nat.max n (k + 1)
    | _ => n) outer.sources.length
  { t with sources := t.sources.take used }

/-- Brings a stream to a file with some content. -/
def directToFile (s : Shell) (stream : Nat) (path : String) (content : List UInt8) :
    Except String Shell :=
  let bare := String.ofList (path.toList.reverse.dropWhile (· = '/')).reverse
  match s.files.write path content with
  | .ok files =>
    let names := (files.locate path).toOption.getD []
    .ok ({ s with files := files }.direct stream (some (.file ("/" ++ "/".intercalate names))))
  | .error .isDirectory => .error s!"cannot create {path}: Is a directory"
  | .error .nameTooLong => .error s!"cannot create {path}: File name too long"
  | .error _ =>
    let reason := if bare ≠ path ∧ (s.files.write bare content).toOption.isSome
      then "Is a directory" else "Directory nonexistent"
    .error s!"cannot create {path}: {reason}"

/-- Brings a stream to what a file holds. -/
def directFrom (s : Shell) (stream : Nat) (path : String) : Except String Shell :=
  match s.files.read path with
  | .ok content => .ok (s.feed stream content)
  | .error .nameTooLong => .error s!"cannot open {path}: File name too long"
  | .error _ => .error s!"cannot open {path}: No such file"

/-- The stream for which a path stands. -/
def streamOf? (path : String) : Option Nat :=
  match path with
  | "/dev/stdin" => some 0
  | "/dev/stdout" => some 1
  | "/dev/stderr" => some 2
  | path => if path.startsWith "/dev/fd/" then natOfDigits? (path.toList.drop 8) else none

/-- Whether a word names a stream, or closes one. -/
def isStreamName (word : String) : Bool :=
  match word.toList with
  | [c] => c == '-' || c.isDigit
  | _ => false

/-- Takes up one redirection, or states a complaint. -/
def redirect (s : Shell) (stream : Nat) (direction : Direction) (target : String) :
    Except String Shell :=
  let same (n : Nat) (complaint : String) : Except String Shell :=
    match s.channels.lookup n with
    | some channel => .ok (s.direct stream (some channel))
    | none => .error complaint
  let output (content : List UInt8) : Except String Shell :=
    match streamOf? target with
    | some n => same n s!"cannot create {target}: Directory nonexistent"
    | none => s.directToFile stream target content
  match direction with
  | .stream =>
    match target.toList, target.toList.map fun c => c.toNat - '0'.toNat with
    | ['-'], _ => .ok (s.direct stream none)
    | _, [n] => if n = stream then .ok s else same n s!"{target}: Bad file descriptor"
    | _, _ => .error s!"{target}: Bad file descriptor"
  | .output =>
    if s.has .noclobber ∧ s.files.isFile target then .error s!"cannot create {target}: File exists"
    else output []
  | .over => output []
  | .append => output ((s.files.read target).toOption.getD [])
  | .document => .ok (s.feed stream (Text.encodeUtf8 target))
  | .input =>
    match streamOf? target with
    | some n => same n s!"cannot open {target}: No such file"
    | none => s.directFrom stream target
  | .both =>
    let content := (s.files.read target).toOption.getD []
    if stream = 0 then
      match s.files.write target content with
      | .ok files => { s with files := files }.directFrom stream target
      | .error _ => s.directToFile stream target content
    else s.directToFile stream target content

end MediaPhases.Shell
