import TagRules.Log

set_option autoImplicit false

namespace TagRules

structure LogCall where
  logger : String
  level : Level
  text : String
  args : List Value
  bound : List (String × Value)
  fields : List (String × Value)

inductive JournalEntry
  | call (call : LogCall)
  | within (context : Context) (entries : List JournalEntry)

namespace Journal

def reserved : List String := ["event", "self"]

def lineOf (threshold : Nat) (context : Context) (c : LogCall) : Except Fault (List Line) :=
  match c.fields.find? fun field => decide (field.1 ∈ reserved) with
  | some field => .error (.repeatedField c.level.name field.1)
  | none =>
      if c.level.rank < threshold then .ok []
      else
        (Log.format c.text c.args).map fun text =>
          [Log.render context ⟨c.logger, c.level, text, c.bound ++ c.fields⟩]

mutual

def linesOf (threshold : Nat) (context : Context) : JournalEntry → Except Fault (List Line)
  | .call c => lineOf threshold context c
  | .within inner entries => linesOfAll threshold inner entries

def linesOfAll (threshold : Nat) (context : Context) :
    List JournalEntry → Except Fault (List Line)
  | [] => .ok []
  | entry :: rest =>
      match linesOf threshold context entry with
      | .error e => .error e
      | .ok lines => (linesOfAll threshold context rest).map (lines ++ ·)

end

def lines (level : String) (entries : List JournalEntry) : Except Fault (List Line) :=
  match Level.threshold level with
  | .error e => .error e
  | .ok threshold => linesOfAll threshold Context.none entries

end Journal

end TagRules
