import OpenApi.Pattern.Parser

/-!
# Matching

A pattern is compiled to instructions, and a text is matched by following all threads at once, one
character at a time. Threads are kept in order of preference and no two stand at one instruction, so
the work is bounded by the product of both sizes; a thread that is done cuts off the less preferred
ones, and the last one that was done gives the match. A search starts threads at later places only
while nothing has matched, so the leftmost match wins.
-/

namespace OpenApi.Pattern

/-- An instruction; the numbers are those of the instructions to go on with. -/
inductive Instruction where
  | done
  | set (members : CharSet) (next : Nat)
  | assertion (assertion : Assertion) (next : Nat)
  | mark (slot : Nat) (next : Nat)
  | fork (first second : Nat)
  deriving Inhabited

/-- The instructions made so far. -/
abbrev Program := Array Instruction

/-- A step of making instructions. -/
abbrev Making := StateM Program

namespace Program

/-! ## Compiling -/

/-- Adds an instruction and tells its number. -/
def add (instruction : Instruction) : Making Nat := do
  let number := (← get).size
  modify (·.push instruction)
  return number

/-- Replaces an instruction. -/
def put (number : Nat) (instruction : Instruction) : Making Unit :=
  modify (·.setIfInBounds number instruction)

/-- A fork that prefers `body` if greedy and `exit` if not. -/
def forkTo (greedy : Bool) (body exit : Nat) : Instruction :=
  if greedy then .fork body exit else .fork exit body

/-- Makes `count` copies of a pattern, one after the other, before `next`. -/
def copies (make : Nat → Making Nat) : Nat → Nat → Making Nat
  | 0, next => pure next
  | count + 1, next => do
    let start ← make next
    copies make count start

/-- Makes `count` nested optional copies before `next`, which each of them may leave for. -/
def optionals (make : Nat → Making Nat) (greedy : Bool) (exit : Nat) : Nat → Nat → Making Nat
  | 0, next => pure next
  | count + 1, next => do
    let body ← make next
    let fork ← add (forkTo greedy body exit)
    optionals make greedy exit count fork

/-- Makes a pattern that is matched once or more before `next`. -/
def onceOrMore (make : Nat → Making Nat) (greedy : Bool) (next : Nat) : Making Nat := do
  let fork ← add .done
  let body ← make fork
  put fork (forkTo greedy body next)
  return body

/-- Makes a pattern that is matched any number of times before `next`. A body that may match nothing
is tried before the choice to leave, so that its empty match counts as one. -/
def anyNumber (make : Nat → Making Nat) (greedy nullable : Bool) (next : Nat) : Making Nat := do
  if nullable then
    let body ← onceOrMore make greedy next
    add (forkTo greedy body next)
  else
    let fork ← add .done
    let body ← make fork
    put fork (forkTo greedy body next)
    return fork

mutual

/-- Makes the instructions of a pattern before `next`, and tells the first. -/
def make : Node → Nat → Making Nat
  | .empty, next => pure next
  | .set members, next => add (.set members next)
  | .assertion assertion, next => add (.assertion assertion next)
  | .group index body, next => do
    let close ← add (.mark (2 * index + 1) next)
    let body ← make body close
    add (.mark (2 * index) body)
  | .repetition least most greedy body, next =>
    match least, most with
    | 0, none => anyNumber (make body) greedy body.nullable next
    | least + 1, none => do
      let last ← onceOrMore (make body) greedy next
      copies (make body) least last
    | least, some most => do
      let rest ← optionals (make body) greedy next (most - least) next
      copies (make body) least rest
  | .sequence items, next => makeAll items next
  | .choice items, next => makeChoice items next

/-- Makes patterns one after the other before `next`. -/
def makeAll : List Node → Nat → Making Nat
  | [], next => pure next
  | item :: rest, next => do
    let rest ← makeAll rest next
    make item rest

/-- Makes alternatives before `next`, those before preferred. -/
def makeChoice : List Node → Nat → Making Nat
  | [], next => pure next
  | [item], next => make item next
  | item :: rest, next => do
    let rest ← makeChoice rest next
    let item ← make item next
    add (.fork item rest)

end

/-- The instructions of a whole pattern, marked as group 0, and the number of the first. -/
def compile (node : Node) : Nat × Program :=
  (do let last ← add .done
      make (.group 0 node) last : Making Nat).run #[]

/-! ## Running -/

/-- A thread: where it stands and what it marked, by slot. -/
structure Thread where
  number : Nat
  marks : List (Nat × Nat)
  deriving Inhabited

/-- Threads at sets of characters and at the end, in order of preference, and the instructions that
were visited. -/
structure Front where
  threads : Array Thread
  visited : List Nat

/-- What surrounds a place in a text. -/
structure Place where
  index : Nat
  before : Option Char
  after : Option Char

/-- Follows the instructions that read nothing, the preferred ones first; `fuel` bounds how many. -/
def expand (program : Program) (place : Place) : Nat → List Thread → Front → Front
  | 0, _, front => front
  | _, [], front => front
  | fuel + 1, thread :: rest, front =>
    if front.visited.contains thread.number then expand program place fuel rest front
    else
      let front := { front with visited := thread.number :: front.visited }
      match program[thread.number]? with
      | none => expand program place fuel rest front
      | some (.fork first second) =>
        expand program place fuel
          ({ thread with number := first } :: { thread with number := second } :: rest) front
      | some (.mark slot next) =>
        let marks := (slot, place.index) :: thread.marks.filter (·.1 ≠ slot)
        expand program place fuel (⟨next, marks⟩ :: rest) front
      | some (.assertion assertion next) =>
        if assertion.holds place.before place.after then
          expand program place fuel ({ thread with number := next } :: rest) front
        else expand program place fuel rest front
      | some (.set _ _) =>
        expand program place fuel rest { front with threads := front.threads.push thread }
      | some .done =>
        expand program place fuel rest { front with threads := front.threads.push thread }

/-- More steps than an expansion takes from one thread. -/
def expansionBound (program : Program) : Nat := 2 * program.size + 2

/-- Adds what a thread leads to. -/
def enter (program : Program) (place : Place) (thread : Thread) (front : Front) : Front :=
  expand program place program.expansionBound [thread] front

/-- Moves threads over a character, in order, until one is done: the threads after the character and
the marks of the one that is done. -/
def step (program : Program) (c : Char) (place : Place) :
    List Thread → Front → Front × Option (List (Nat × Nat))
  | [], front => (front, none)
  | thread :: rest, front =>
    match program[thread.number]? with
    | some (.set members next) =>
      if members c then step program c place rest (enter program place ⟨next, thread.marks⟩ front)
      else step program c place rest front
    | some .done => (front, some thread.marks)
    | _ => step program c place rest front

/-- The marks of the first thread that is done. -/
def finished (program : Program) (threads : List Thread) : Option (List (Nat × Nat)) :=
  threads.findSome? fun thread =>
    match program[thread.number]? with
    | some .done => some thread.marks
    | _ => none

/-- Runs threads over a text; `found` holds the marks of the best match so far. -/
def run (program : Program) (start : Nat) (threads : Array Thread)
    (found : Option (List (Nat × Nat))) (index : Nat) (before : Option Char) :
    List Char → Option (List (Nat × Nat))
  | [] =>
    let front := begin program start threads found ⟨index, before, none⟩
    (finished program front.toList).or found
  | c :: rest =>
    let threads := begin program start threads found ⟨index, before, some c⟩
    let place : Place := ⟨index + 1, some c, rest.head?⟩
    let (front, best) := step program c place threads.toList ⟨#[], []⟩
    let found := best.or found
    if front.threads.isEmpty ∧ found.isSome then found
    else run program start front.threads found (index + 1) (some c) rest
where
  /-- Adds a thread at the first instruction while nothing has matched. -/
  begin (program : Program) (start : Nat) (threads : Array Thread)
      (found : Option (List (Nat × Nat))) (place : Place) : Array Thread :=
    if found.isSome then threads
    else
      let visited := threads.toList.map Thread.number
      (enter program place ⟨start, []⟩ ⟨threads, visited⟩).threads

end Program

/-- A pattern ready to be matched. -/
structure Compiled where
  program : Program
  start : Nat
  names : List (String × Nat)

/-- Compiles a pattern; none if it is malformed. -/
def compile? (text : String) : Option Compiled :=
  (parse? text).map fun parsed =>
    let (start, program) := Program.compile parsed.node
    ⟨program, start, parsed.names⟩

/-- A match: the text before it, the texts of the groups that took part, and the text after it. -/
structure Match where
  before : List Char
  groups : List (Nat × List Char)
  after : List Char

/-- The texts between the marks of groups. -/
def groupTexts (text : List Char) (marks : List (Nat × Nat)) : List (Nat × List Char) :=
  marks.filterMap fun (slot, first) =>
    if slot % 2 = 0 then
      (marks.lookup (slot + 1)).map fun last => (slot / 2, (text.take last).drop first)
    else none

/-- The leftmost match in a text; `before` is the character before the text, if there is one. -/
def Compiled.findAfter? (pattern : Compiled) (before : Option Char) (text : List Char) :
    Option Match := do
  let marks ← Program.run pattern.program pattern.start #[] none 0 before text
  let first ← marks.lookup 0
  let last ← marks.lookup 1
  some ⟨text.take first, groupTexts text marks, text.drop last⟩

/-- The leftmost match in a whole text. -/
def Compiled.find? (pattern : Compiled) (text : List Char) : Option Match :=
  pattern.findAfter? none text

end OpenApi.Pattern
