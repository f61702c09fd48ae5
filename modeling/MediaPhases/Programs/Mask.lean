/-!
# Masks of permissions

Which permissions new files do not get: nine bits, three for the owner, three for the group and
three for the others.  They are stated by octal digits or by clauses that add, take away or set
permissions.
-/

namespace MediaPhases.Mask

/-- All nine bits. -/
def full : Nat := 511

/-- The bits that are not in a mask. -/
def complement (bits : Nat) : Nat :=
  (bits &&& full) ^^^ full

/-- Four octal digits. -/
def octal (mask : Nat) : String :=
  let digits := Nat.toDigits 8 mask
  String.ofList (List.replicate (4 - digits.length) '0' ++ digits)

/-- The permissions that a mask leaves, as clauses that set them. -/
def clauses (mask : Nat) : String :=
  let left := complement mask
  let letters (shift : Nat) : List Char :=
    [('r', 4), ('w', 2), ('x', 1)].filterMap fun p =>
      if (left / shift) &&& p.2 = 0 then none else some p.1
  ",".intercalate ([('u', 64), ('g', 8), ('o', 1)].map fun p =>
    String.ofList (p.1 :: '=' :: letters p.2))

/-- The mask of octal digits. -/
def ofDigits? (cs : List Char) : Option Nat :=
  (cs.foldlM (fun n c =>
    if '0' ≤ c ∧ c ≤ '7' then some (n * 8 + (c.toNat - '0'.toNat)) else none) 0).map (· &&& full)

/-- The lowest bits of those for whom a letter stands. -/
def owners? : Char → Option Nat
  | 'a' => some 73
  | 'u' => some 64
  | 'g' => some 8
  | 'o' => some 1
  | _ => none

/-- The three bits for which a letter stands, given the permissions that there are. -/
def bits? (left : Nat) : Char → Option Nat
  | 'r' => some 4
  | 'w' => some 2
  | 'x' => some 1
  | 'u' => some ((left / 64) &&& 7)
  | 'g' => some ((left / 8) &&& 7)
  | 'o' => some (left &&& 7)
  | 'X' => some (if left &&& 73 = 0 then 0 else 1)
  | 's' => some 0
  | _ => none

/-- Those whose permissions a clause is about, from the letters at the start of a text on. -/
def owners (usual : Nat) : List Char → Nat × List Char
  | [] => (usual, [])
  | c :: cs =>
    match owners? c with
    | some n => owners (usual ||| n) cs
    | none => (usual, c :: cs)

/-- The bits of the letters at the start of a text. -/
def bits (left found : Nat) : List Char → Nat × List Char
  | [] => (found, [])
  | c :: cs =>
    match bits? left c with
    | some n => bits left (found ||| n) cs
    | none => (found, c :: cs)

/-- The permissions after clauses have been followed, and what is left where one makes no sense;
the number bounds the clauses. -/
def follow : Nat → Nat → Nat → List Char → Nat × List Char
  | 0, _, left, cs => (left, cs)
  | _, _, left, [] => (left, [])
  | steps + 1, whom, left, cs =>
    let (found, rest) := owners whom cs
    let whom := if found = 0 then 73 else found
    match rest with
    | [] => (left, [])
    | sign :: rest' =>
      let (new, after) := bits left 0 rest'
      let new := new * whom
      let go (left : Nat) : Nat × List Char :=
        match after with
        | ',' :: after => follow steps 0 left after
        | c :: _ => if ['=', '+', '-'].contains c then follow steps whom left after else (left, after)
        | [] => (left, [])
      match sign with
      | '-' => go (left &&& complement new)
      | '=' => go (new ||| (left &&& complement (whom * 7)))
      | '+' => go (left ||| new)
      | _ => (left, rest)

/-- The mask of clauses, given the mask that there is. -/
def ofClauses? (mask : Nat) (cs : List Char) : Option Nat :=
  match follow (cs.length + 1) 0 (complement mask) cs with
  | (left, []) => some (complement left)
  | _ => none

end MediaPhases.Mask
