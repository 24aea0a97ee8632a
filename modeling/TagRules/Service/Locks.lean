import TagRules.Dictionary

/-!
Besides the locks the registry counts the tasks that hold or await each one; a lock that nobody holds
or awaits is dropped.
-/

set_option autoImplicit false

namespace TagRules

structure ClientLock where
  holder : Option Nat
  waiting : List Nat
  deriving DecidableEq, Inhabited

structure LockTable where
  locks : Dictionary String ClientLock
  users : Dictionary String Nat
  deriving DecidableEq, Inhabited

namespace LockTable

def empty : LockTable := ⟨[], []⟩

def lockOf (client : String) (table : LockTable) : ClientLock :=
  (Dictionary.get? client table.locks).getD ⟨none, []⟩

def countOf (client : String) (table : LockTable) : Nat :=
  (Dictionary.get? client table.users).getD 0

def isHolder (client : String) (task : Nat) (table : LockTable) : Bool :=
  (table.lockOf client).holder == some task

def enter (client : String) (task : Nat) (table : LockTable) : LockTable :=
  let lock := table.lockOf client
  let taken : ClientLock :=
    if lock.holder.isNone && lock.waiting.isEmpty then ⟨some task, []⟩
    else { lock with waiting := lock.waiting ++ [task] }
  ⟨Dictionary.put client taken table.locks,
    Dictionary.put client (table.countOf client + 1) table.users⟩

def drop (client : String) (table : LockTable) : LockTable :=
  let left := table.countOf client - 1
  if left = 0 then ⟨Dictionary.erase client table.locks, Dictionary.erase client table.users⟩
  else { table with users := Dictionary.put client left table.users }

def handOver (client : String) (table : LockTable) : LockTable :=
  let lock := table.lockOf client
  { table with locks := Dictionary.put client ⟨lock.waiting.head?, lock.waiting.tail⟩ table.locks }

def leave (client : String) (table : LockTable) : LockTable := (table.handOver client).drop client

def abandon (client : String) (task : Nat) (table : LockTable) : LockTable :=
  if table.isHolder client task then table.leave client
  else
    let lock := table.lockOf client
    let shorter : ClientLock := { lock with waiting := lock.waiting.erase task }
    ({ table with locks := Dictionary.put client shorter table.locks } : LockTable).drop client

end LockTable

end TagRules
