import MediaPhases.Programs.Search
import MediaPhases.Programs.Streams

/-!
# The command interpreter

Runs scripts.  A script goes on until it ends itself, until a signal ends it, or until its time
is up; since a loop may have no end, every run also has a number of steps after which its time
counts as up.
-/

namespace MediaPhases.Shell

open Script

/-- The greatest length of a value; to make a longer one takes more time than there is. -/
def valueLimit : Nat := 1000000

/-- The commands whose arguments may give variables values. -/
def declaringNames : List String :=
  ["alias", "export", "local", "readonly"]

/-- How deep functions may call functions. -/
def depthLimit : Nat := 1000

/-- The interpreter after a turn of a loop, and whether there may be another one. -/
def afterTurn (limit : Nat) (s : Shell) : Bool × Shell :=
  match s.jump with
  | some (.left n isRepeated) =>
    if n ≤ 1 then (isRepeated, { s with jump := none })
    else (false, { s with jump := some (.left (n - 1) isRepeated) })
  | some _ => (false, s)
  | none => (decide (s.elapsed < limit), s)

/-- The interpreter after a function has ended. -/
def afterCall (outer s : Shell) : Shell :=
  let s := putBack (s.locals.getD {}) s
  { s with
    args := outer.args
    cursor := outer.cursor
    locals := outer.locals
    depth := outer.depth
    loops := outer.loops
    jump := if s.jump = some .returned then none else s.jump }

/-- The interpreter after everyone has ended who could write to the last buffer, which is given
up. -/
def afterBuffer (n : Nat) (s : Shell) : Shell :=
  { s with
    buffers := n
    log := s.log.filter fun entry => entry.1 ≠ n
    elapsed := (s.held.filter fun h => h.1 = n).foldl (fun time h => Nat.max time h.2) s.elapsed
    held := s.held.filter fun h => h.1 ≠ n }

/-- The interpreter after a command whose streams went elsewhere. -/
def afterStreams (outer : Shell) (redirections : List Redirection) (s : Shell) : Shell :=
  putStreams outer (redirections.map (·.1)) s

/-- The interpreter after commands all of whose streams may have gone elsewhere. -/
def afterAll (outer s : Shell) : Shell :=
  putStreams outer [] { s with channels := outer.channels }

/-- The redirections of the last command of a list, which needs no interpreter around it. -/
def lastRedirections (clauses : List Clause) : List Redirection :=
  match clauses.getLast? with
  | some (.pipeline _ _ [.simple _ _ redirections])
  | some (.pipeline _ _ [.compound _ _ redirections]) => redirections
  | _ => []

/-- The buffers among channels, with the time up to which they are held. -/
def heldUntil (time : Nat) (channels : List (Nat × Channel)) : List (Nat × Nat) :=
  channels.filterMap fun
    | (_, .buffer n) => some (n, time)
    | _ => none

mutual

/-- Goes on with a piece of a word. -/
def addPiece (around : Surroundings) :
    Nat → Splitting → Fields → Piece → Shell → Fields × Shell
  | 0, _, f, _, s => (f, s.exhaust around.limit)
  | fuel + 1, splitting, f, piece, s =>
    let value (isQuoted : Bool) (text : String) (s : Shell) : Fields × Shell :=
      (f.pushValue s.separators splitting isQuoted text, s)
    match piece with
    | .text cs isQuoted =>
      (if splitting = .all ∧ !isQuoted then f.pushSplit s.separators cs
        else f.push cs isQuoted, s)
    | .output body isQuoted =>
      let (bytes, s) := capture around fuel body s
      value isQuoted (captured bytes) s
    | .number w isQuoted =>
      let (marks, s) := joined around fuel w s
      if s.isOver around.limit then (f, s)
      else match Arithmetic.evaluate s.bindings (marks.map (·.1)) with
      | .ok (n, bindings) => value isQuoted (toString n) (s.rebind bindings)
      | .error .overflow => (f, { s with jump := some (.gone (.killed 8)) })
      | .error fault => (f, s.fail (fault.message (textOf marks)))
    | .parameter name use isQuoted =>
      let nested (f : Fields) (w : Word) (s : Shell) : Fields × Shell :=
        addPieces around fuel (if splitting = .never then .never else .all)
          (if isQuoted then f.push [] true else f) ((s.homes (splitting == .never)).word true w) s
      let isUnset := s.has .nounset && (s.value? name).isNone
      match use with
      | .plain | .length | .trimmed _ _ _ =>
        if isUnset then (f, s.fail s!"{name}: parameter not set")
        else
          match use, s.value? name with
          | .length, _ => value isQuoted (toString (s.lengthOf name)) s
          | .trimmed atEnd isLongest w, some text =>
            let (marks, s) := joined around fuel w s
            let cs := (Pattern.ofMarks marks).trim atEnd isLongest text.toList
            value isQuoted (String.ofList cs) s
          | _, _ => (s.addParameter splitting f name isQuoted, s)
      | .meaningless => (f, s.fail "Bad substitution")
      | .substitute kind emptyCounts w =>
        let isThere := match s.value? name with
          | some text => !(emptyCounts && text == "")
          | none => false
        match kind, isThere with
        | .instead, false => (if isQuoted then f.push [] true else f, s)
        | .instead, true | .usual, false => nested f w s
        | _, true =>
          (s.addParameter splitting (if isQuoted then f.push [] true else f) name isQuoted, s)
        | .assigned, false =>
          let (marks, s) := joined around fuel w s
          if s.isOver around.limit then (f, s)
          else value isQuoted (textOf marks) (s.bind name (textOf marks))
        | .complaint, false =>
          let (marks, s) := joined around fuel w s
          let text := if !w.isEmpty then textOf marks
            else if emptyCounts then "parameter not set or null"
            else "parameter not set"
          (f, if s.isOver around.limit then s else s.fail s!"{name}: {text}")

/-- Goes on with the pieces of a word. -/
def addPieces (around : Surroundings) :
    Nat → Splitting → Fields → Word → Shell → Fields × Shell
  | 0, _, f, _, s => (f, s.exhaust around.limit)
  | _, _, f, [], s => (f, s)
  | fuel + 1, splitting, f, piece :: rest, s =>
    let (f, s) := addPiece around fuel splitting f piece s
    if s.isOver around.limit then (f, s) else addPieces around fuel splitting f rest s

/-- The text of a word that is not split. -/
def joined (around : Surroundings) : Nat → Word → Shell → List Pattern.Mark × Shell
  | 0, _, s => ([], s.exhaust around.limit)
  | fuel + 1, w, s =>
    let (f, s) := addPieces around fuel .never {} ((s.homes false).word true w) s
    (f.whole, s)

/-- The fields that words come to.  Where a command declares variables, which shows as soon as it
has a name, its words may give them values, which are not split. -/
def expand (around : Surroundings) : Nat → Option Bool → List Word → Shell → List String × Shell
  | 0, _, _, s => ([], s.exhaust around.limit)
  | _, _, [], s => ([], s)
  | fuel + 1, declares, w :: rest, s =>
    let (fields, s) :=
      match assignment? w, declares with
      | some (name, value), some true =>
        let (marks, s) := joined around fuel ((s.homes true).word true value) s
        ([name ++ "=" ++ textOf marks], s)
      | _, _ =>
        let (f, s) := addPieces around fuel .values {} ((s.homes false).word true w) s
        (s.pathsOf f.all, s)
    if s.isOver around.limit then ([], s)
    else
      let declares := declares.or
        ((fields.find? (· ≠ "command")).map fun name => declaringNames.contains name)
      let (more, t) := expand around fuel declares rest s
      (fields ++ more, t)

/-- What an inner interpreter writes. -/
def capture (around : Surroundings) : Nat → List Clause → Shell → List UInt8 × Shell
  | 0, _, s => ([], s.exhaust around.limit)
  | fuel + 1, body, s =>
    let n := s.buffers
    let t := runInner around fuel body
      ({ s with buffers := n + 1 }.direct 1 (some (.buffer n)))
    (t.written n, { afterAll s (t.afterBuffer n) with
      status := s.status
      substituted := some t.status })

/-- Runs an inner interpreter. -/
def runInner (around : Surroundings) : Nat → List Clause → Shell → Shell
  | 0, _, s => s.exhaust around.limit
  | fuel + 1, body, s =>
    s.leave (runLast around fuel (runClauses around fuel body s.inner))

/-- Does what is to be done at the end of an interpreter. -/
def runLast (around : Surroundings) : Nat → Shell → Shell
  | 0, s => s.exhaust around.limit
  | fuel + 1, s =>
    match s.traps.lookup 0, s.jump with
    | none, _ | some "", _ | _, some (.killed _) | _, some (.gone _) => s
    | some text, jump =>
      if around.limit ≤ s.elapsed then s
      else
        let status := match jump with
          | some (.ended code) => code
          | _ => s.status
        let t := runText around fuel text { s with jump := none, traps := [], status := status }
        { t with
          jump := if t.jump.isSome then t.jump else jump
          status := if t.jump = some .failed then t.status else status }

/-- Runs clauses in order, each if what became of the one before allows it. -/
def runClauses (around : Surroundings) : Nat → List Clause → Shell → Shell
  | 0, _, s => s.exhaust around.limit
  | _, [], s => s
  | fuel + 1, .pipeline connector isNegated commands :: rest, s =>
    if s.isOver around.limit ∨ s.has .noexec then s
    else
      let applies := match connector with
        | .always => true
        | .onSuccess => s.status == 0
        | .onFailure => s.status != 0
      let isTested := s.isTested || isNegated || (rest.head?.any fun c => c.connector != .always)
      let t :=
        if applies then
          let t := runPipeline around fuel commands { s with isTested := isTested }
          if t.jump.isSome then t
          else if isNegated then { t with status := if t.status = 0 then 1 else 0 }
          else if t.has .errexit ∧ t.status ≠ 0 ∧ !isTested then
            { t with jump := some (.ended t.status) }
          else t
        else s
      runClauses around fuel rest { t with isTested := s.isTested }

/-- Runs commands of which each one reads what the one before writes. -/
def runPipeline (around : Surroundings) : Nat → List Command → Shell → Shell
  | 0, _, s => s.exhaust around.limit
  | fuel + 1, commands, s =>
    match commands with
    | [command] => runCommand around fuel command s
    | commands => afterAll s (runPiped around fuel s.elapsed commands s)

/-- Runs commands side by side in inner interpreters. -/
def runPiped (around : Surroundings) : Nat → Nat → List Command → Shell → Shell
  | 0, _, _, s => s.exhaust around.limit
  | _, _, [], s => s
  | fuel + 1, start, command :: rest, s =>
    let s := match plainName? command with
      | some name => if s.isForeign around name then s.track around name else s
      | none => s
    let run (t : Shell) : Shell :=
      let t := t.leave (runLast around fuel (runCommand around fuel command
        { t.inner with elapsed := start }))
      { t with elapsed := Nat.max s.elapsed t.elapsed }
    match rest with
    | [] => run s
    | rest =>
      let n := s.buffers
      let t := run ({ s with buffers := n + 1 }.direct 1 (some (.buffer n)))
      let next := { t.afterBuffer n with channels := s.channels, status := s.status }
      let next := next.feed 0 (t.written n)
      if t.isOver around.limit then next else runPiped around fuel start rest next

/-- Runs a command. -/
def runCommand (around : Surroundings) : Nat → Command → Shell → Shell
  | 0, _, s => s.exhaust around.limit
  | fuel + 1, command, s =>
    match command with
    | .define name body =>
      { s with
        functions := (name, body) :: s.functions.filter fun f => f.1 ≠ name
        status := 0 }
    | .simple line words redirections =>
      runTraps around fuel (runSimple around fuel words redirections { s with line := line })
    | .compound line form redirections =>
      let (isFine, t) := redirectAll around fuel redirections { s with line := line }
      afterStreams s redirections
        (if t.isOver around.limit then t
          else if isFine then runCompound around fuel form t
          else { t with status := 2 })

/-- Runs a command made of scripts. -/
def runCompound (around : Surroundings) : Nat → Compound → Shell → Shell
  | 0, _, s => s.exhaust around.limit
  | fuel + 1, form, s =>
    let within (run : Shell → Shell) : Shell :=
      { run { s with loops := s.loops + 1 } with loops := s.loops }
    match form with
    | .group body => runClauses around fuel body s
    | .inner body => runInner around fuel body s
    | .background body =>
      let t := runInner around fuel body (s.feed 0 [])
      let before := runInner around fuel body.dropLast s
      let channels := (redirectAll around fuel (lastRedirections body) s).2.channels
      { afterAll s t with
        elapsed := s.elapsed
        lasting := Nat.max s.lasting (Nat.max t.elapsed t.lasting)
        held := heldUntil before.elapsed s.channels ++ heldUntil t.elapsed channels ++ t.held
        isJobKnown := false
        job := some (.exited t.status)
        status := 0 }
    | .branch test yes no =>
      let t := runClauses around fuel test { s with isTested := true }
      let t := { t with isTested := s.isTested }
      if t.isOver around.limit then t
      else if t.status = 0 then runClauses around fuel yes t
      else if no.isEmpty then { t with status := 0 }
      else runClauses around fuel no t
    | .loop isUntil test body => within (runLoop around fuel isUntil test body 0)
    | .each name words body =>
      let (values, t) := match words with
        | some words => expand around fuel (some false) words s
        | none => (s.args, s)
      if t.isOver around.limit then t
      else within fun _ =>
        let status := if values = [] then 0 else t.status
        runEach around fuel name body values { t with status := status, loops := s.loops + 1 }
    | .choose w arms =>
      let (marks, t) := joined around fuel w s
      if t.isOver around.limit then t
      else runArms around fuel (textOf marks).toList arms t

/-- Runs a body as long as a test allows it; the code is that of the last turn. -/
def runLoop (around : Surroundings) :
    Nat → Bool → List Clause → List Clause → Nat → Shell → Shell
  | 0, _, _, _, _, s => s.exhaust around.limit
  | fuel + 1, isUntil, test, body, status, s =>
    let t := runClauses around fuel test { s with isTested := true }
    let (goesOn, t) := afterTurn around.limit { t with isTested := s.isTested }
    if !goesOn then t
    else if (t.status == 0) == isUntil then { t with status := status }
    else
      let (goesOn, t) := afterTurn around.limit (runClauses around fuel body t)
      if goesOn then runLoop around fuel isUntil test body t.status t else t

/-- Runs a body for one value of a variable after the other. -/
def runEach (around : Surroundings) :
    Nat → String → List Clause → List String → Shell → Shell
  | 0, _, _, _, s => s.exhaust around.limit
  | _, _, _, [], s => s
  | fuel + 1, name, body, value :: rest, s =>
    let (goesOn, t) := afterTurn around.limit (runClauses around fuel body (s.bind name value))
    if goesOn then runEach around fuel name body rest t else t

/-- Runs the first arm one of whose patterns matches a text. -/
def runArms (around : Surroundings) :
    Nat → List Char → List (List Word × List Clause) → Shell → Shell
  | 0, _, _, s => s.exhaust around.limit
  | _, _, [], s => { s with status := 0 }
  | fuel + 1, cs, (patterns, body) :: rest, s =>
    let (isMatch, s) := matchesAny around fuel cs patterns s
    if s.isOver around.limit then s
    else if isMatch then
      runClauses around fuel body { s with status := if body.isEmpty then 0 else s.status }
    else runArms around fuel cs rest s

/-- Whether one of several patterns matches a text. -/
def matchesAny (around : Surroundings) : Nat → List Char → List Word → Shell → Bool × Shell
  | 0, _, _, s => (false, s.exhaust around.limit)
  | _, _, [], s => (false, s)
  | fuel + 1, cs, w :: rest, s =>
    let (marks, s) := joined around fuel w s
    if (Pattern.ofMarks marks).accepts cs then (true, s)
    else matchesAny around fuel cs rest s

/-- Finds what the words of redirections come to; documents are left for later. -/
def findTargets (around : Surroundings) :
    Nat → List Redirection → Shell → List (Redirection × String) × Shell
  | 0, _, s => ([], s.exhaust around.limit)
  | _, [], s => ([], s)
  | fuel + 1, (stream, direction, w) :: rest, s =>
    let (text, s) :=
      if direction = .document then ("", s)
      else
        let (marks, s) := joined around fuel w s
        (textOf marks, s)
    if s.isOver around.limit then ([], s)
    else if direction = .stream ∧ !isStreamName text then
      ([], { s with line := s.reached }.fail "Syntax error: Bad fd number")
    else
      let (more, s) := findTargets around fuel rest s
      (((stream, direction, w), text) :: more, s)

/-- Takes up redirections in order until one cannot be; a fault within a document counts as such. -/
def openAll (around : Surroundings) : Nat → List (Redirection × String) → Shell → Bool × Shell
  | 0, _, s => (false, s.exhaust around.limit)
  | _, [], s => (true, s)
  | fuel + 1, ((stream, direction, w), text) :: rest, s =>
    let (text, s) :=
      if direction = .document then
        let (marks, s) := joined around fuel w s
        (textOf marks, s)
      else (text, s)
    if s.isOver around.limit then
      (false, if s.jump = some .failed then { s with jump := none } else s)
    else
      match s.redirect stream direction text with
      | .ok s => openAll around fuel rest s
      | .error text =>
        (false, (if direction = .stream then s.direct stream none else s).complain text)

/-- Takes up redirections. -/
def redirectAll (around : Surroundings) : Nat → List Redirection → Shell → Bool × Shell
  | 0, _, s => (false, s.exhaust around.limit)
  | fuel + 1, redirections, s =>
    let (targets, s) := findTargets around fuel redirections s
    if s.isOver around.limit then (false, s) else openAll around fuel targets s

/-- Gives variables their values. -/
def assign (around : Surroundings) : Nat → List Word → Shell → Shell
  | 0, _, s => s.exhaust around.limit
  | _, [], s => s
  | fuel + 1, w :: rest, s =>
    match assignment? w with
    | none => s
    | some (name, w) =>
      let (marks, s) := joined around fuel ((s.homes true).word true w) s
      if s.isOver around.limit then s
      else if valueLimit < marks.length then s.exhaust around.limit
      else
        let s := s.bind name (textOf marks)
        if s.jump.isSome then s else assign around fuel rest s

/-- Runs a command that is made of words. -/
def runSimple (around : Surroundings) :
    Nat → List Word → List Redirection → Shell → Shell
  | 0, _, _, s => s.exhaust around.limit
  | fuel + 1, words, redirections, s =>
    let assigned := words.takeWhile fun w => (assignment? w).isSome
    let own := assigned.filterMap fun w => (assignment? w).map (·.1)
    let (fields, s) := expand around fuel none (words.drop assigned.length)
      { s with substituted := none }
    if s.isOver around.limit then s
    else
      let isSpecial := fields.head?.any isSpecial
      let (isFine, t) := redirectAll around fuel redirections s
      if t.isOver around.limit then afterStreams s redirections t
      else if !isFine then
        let jump := if isSpecial then some .failed else none
        afterStreams s redirections { t with status := 2, jump := jump }
      else
        let u := assign around fuel assigned t
        if u.isOver around.limit then afterStreams s redirections u
        else
          let u := if u.has .xtrace then traceCommand around fuel s own fields u else u
          match fields with
          | [] => afterStreams s redirections { u with status := u.substituted.getD 0 }
          | ["exec"] => { u with status := 0 }
          | name :: args =>
            let r := runNamed around fuel own true name args u
            let r := if isSpecial then r
              else own.foldl (fun r name => r.restore name (t.bindings.lookup name)) r
            afterStreams s redirections r

/-- Writes what is about to be run, to where complaints went before. -/
def traceCommand (around : Surroundings) :
    Nat → Shell → List String → List String → Shell → Shell
  | 0, _, _, _, s => s.exhaust around.limit
  | fuel + 1, outer, own, fields, s =>
    let sign := ((s.bindings.lookup "PS4").getD "").toList
    let (marks, t) := match readDocument sign with
      | .ok w =>
        joined around fuel w { s with options := ShellOption.turn false .xtrace s.options }
      | .error _ => (sign.map fun c => (c, true), s)
    let values := own.map fun name => name ++ "=" ++ (s.bindings.lookup name).getD ""
    let text := textOf marks ++ " ".intercalate (values ++ fields) ++ "\n"
    { { t with channels := outer.channels }.write 2 (Text.encodeUtf8 text) with
      channels := s.channels
      options := s.options
      status := s.status }

/-- Runs what a name stands for: a function if that may be, something that is part of the
interpreter, or a program.  A fault ends the interpreter only within special commands. -/
def runNamed (around : Surroundings) :
    Nat → List String → Bool → String → List String → Shell → Shell
  | 0, _, _, _, _, s => s.exhaust around.limit
  | fuel + 1, own, isDirect, name, args, s =>
    let speaking (speaker text : String) : Shell :=
      { runText around fuel text { s with speaker := some speaker, status := 0 } with
        speaker := s.speaker
        line := s.line
        reached := s.reached }
    match if isDirect then s.functions.lookup name else none with
    | some body =>
      if depthLimit ≤ s.depth then
        s.fail s!"Maximum function recursion depth ({depthLimit}) reached"
      else
        afterCall s (runCommand around fuel body
          { s.withArgs args with locals := some {}, depth := s.depth + 1, loops := 0 })
    | none =>
      let r :=
        match name, args with
        | "eval", args => speaking "eval" (" ".intercalate args)
        | ".", args =>
          let t := { s with speaker := some "." }
          match splitOptions "" args with
          | .error text => t.fail text
          | .ok (_, []) => { s with status := 0 }
          | .ok (_, path :: _) =>
            match path.contains '/', s.files.read path with
            | true, .error .isDirectory => { s with status := 0 }
            | true, .ok content =>
              let t := speaking path (Text.decodeLossy content)
              { t with jump := if t.jump = some .returned then none else t.jump }
            | true, .error _ => t.fail s!"cannot open {path}: No such file"
            | false, _ => t.fail s!"{path}: not found"
        | "exec", name :: args => replaceBy around own name args s
        | "command", args =>
          match splitOptions "pvV" args with
          | .error text => { { s with speaker := some name }.refuse text with speaker := s.speaker }
          | .ok (_, []) => { s with status := 0 }
          | .ok (options, name :: args) =>
            let letters := options.map (·.1)
            let t := if !letters.contains 'p' then s
              else { s with bindings := s.bindings.set "PATH" (":".intercalate around.directories) }
            let r := match letters.reverse.find? (· ≠ 'p') with
              | some c =>
                let say : BuiltIn := fun s _ => describe around (c == 'V') { s with status := 0 } name
                runBuiltIn say "command" t args
              | none => runNamed around fuel own false name args t
            if !letters.contains 'p' then r
            else r.restore "PATH" (s.bindings.lookup "PATH")
        | "type", args => runBuiltIn (describeAll around) name s args
        | "hash", args => runBuiltIn (trackAll around) name s args
        | name, args =>
          match builtIn? around.limit name with
          | some b => runBuiltIn b name s args
          | none => runProgram around own name args s
      if r.jump = some .failed ∧ !(isDirect ∧ isSpecial name) then
        { r with jump := none, speaker := s.speaker, status := 2 }
      else r

/-- Does what is to be done for the signals that have arrived. -/
def runTraps (around : Surroundings) : Nat → Shell → Shell
  | 0, s => s.exhaust around.limit
  | fuel + 1, s =>
    match s.pending with
    | [] => s
    | signal :: rest =>
      if s.isOver around.limit then s
      else
        let t := runText around fuel ((s.traps.lookup signal).getD "") { s with pending := rest }
        runTraps around fuel { t with status := s.status }

/-- Runs the text of a script. -/
def runText (around : Surroundings) : Nat → String → Shell → Shell
  | 0, _, s => s.exhaust around.limit
  | fuel + 1, text, s =>
    let cs := text.toList.filter (· ≠ goneLine)
    runLines around fuel (lineEnds cs + 1) cs s

/-- Runs a text line by line; a flaw in it shows when its line is reached. -/
def runLines (around : Surroundings) : Nat → Nat → List Char → Shell → Shell
  | 0, _, _, s => s.exhaust around.limit
  | _, _, [], s => s
  | fuel + 1, lines, cs, s =>
    if s.isOver around.limit then s
    else
      match nextLine ⟨lines, s.aliases, none⟩ cs with
      | .ok (clauses, rest) =>
        let t := runClauses around fuel clauses { s with reached := lines - lineEnds rest }
        runLines around fuel lines rest t
      | .error flaw => { s with line := flaw.line }.fail flaw.message

end

/-- The number of steps after which the time of a run counts as up. -/
def stepLimit : Nat := 30000

/-- Runs a script to its end. -/
def runScript (around : Surroundings) (text : String) (s : Shell) : Effect :=
  let t := runLast around stepLimit (runText around stepLimit text s)
  let parts := t.log.reverse.map fun entry => (⟨entry.2.1, entry.1 == 1, entry.2.2⟩ : Part)
  { status := match t.jump with
      | some (.ended code) => .exited code
      | some (.gone status) => status
      | some (.killed signal) => .killed signal
      | _ => .exited t.status
    parts := parts.mergeSort fun a b => a.time ≤ b.time
    elapsed := t.held.foldl (fun time h => Nat.max time h.2) t.elapsed
    files := { t.files with working := s.files.working } }

/-- The variables of an interpreter that starts. -/
def startBindings (environment : List (String × String)) (working : String) :
    Arithmetic.Bindings :=
  let set (b : Arithmetic.Bindings) (entry : String × String) := b.set entry.1 entry.2
  let usual := [("PS1", "# "), ("PS2", "> "), ("PS4", "+ "), ("PPID", "999")]
  [("IFS", " \t\n"), ("OPTIND", "1"), ("PWD", working)].foldl set
    (environment.foldl set usual)

/-- The command interpreter as a program: a script among its arguments, in a file, or as its
input. -/
def program (name : String) (around : Surroundings) : Program := fun i =>
  let channels := ({ name := name, files := i.files } : Shell).channels.filter fun c =>
    (c.1 ≠ 0 ∨ i.input.isSome) ∧ (c.1 ≠ 1 ∨ i.outlet ≠ .absent)
  let start : Shell := {
    name := name
    sources := [i.input.getD []]
    channels := channels
    files := i.files }
  let start := { start with
    bindings := startBindings i.environment start.workingPath
    exported := "PWD" :: i.environment.map (·.1) }
  let refuse (text : String) : Effect :=
    Program.refusingWith 2 s!"{name}: 0: {text}" i
  match takeSettings ['c', 'l'] i.args.length i.args start with
  | .error text => refuse text
  | .ok (s, letters, words) =>
    let s := { { s with line := 0 }.dropMonitor with line := 1 }
    match letters.contains 'c', words.getD [] with
    | true, [] => refuse "-c requires an argument"
    | true, text :: rest =>
      runScript around text { s with name := rest.headD name, args := rest.tail }
    | false, words =>
      match if s.has .stdin then [] else words with
      | [] =>
        runScript around (Text.decodeLossy (i.input.getD [])) { s with
          args := words
          sources := [[]]
          options := ShellOption.turn true .stdin s.options }
      | path :: args =>
        match i.files.read path with
        | .ok content =>
          runScript around (Text.decodeLossy content) { s with name := path, args := args }
        | .error .isDirectory => runScript around "" s
        | .error _ => refuse s!"cannot open {path}: No such file"

end MediaPhases.Shell
