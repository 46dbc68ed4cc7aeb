import TransferServer.Lib.Ensures

/-! How a modelled computation of the server can end. -/

set_option autoImplicit false

namespace TransferServer

/-- A `char`; only its eight bits matter wherever it is compared or copied. -/
abbrev Byte := UInt8

/-- A `std::string`: any bytes, NUL included. -/
abbrev Bytes := List Byte

/-- The assertions of the modelled sources, by the function that makes them. -/
inductive Assertion where
  | bufferConstructor
  | findCRLF
  | retrieve
  | retrieveUntil
  | ensureWritableBytes
  | prepend
  | makeSpace
  | connectEstablished
  | sendInLoop
  | loop
  | insert
  | getExpired
  | threadFunc
  | updateChannel
  | removeChannel
  | fillActiveChannels
  | assertInLoopThread
  | handleClose
  | connectDestroyed
  | removeConnectionInLoop
  | fileConstructor
  | logFileConstructor
  | startLoop
  | threadStart
  | threadJoin
  | eventLoopDestructor
  | fmt
  | formatTime
  | assertLocked
  | mutexDestructor
  deriving DecidableEq, Repr

/-- Why a computation goes no further. -/
inductive Halt where
  /-- An assertion of the source fails and the process aborts. -/
  | assertion (which : Assertion)
  /-- The source reads or writes outside an array. -/
  | outOfBounds
  /-- The source uses an object that no longer exists. -/
  | dangling
  /-- The source computes a value that its type does not hold. -/
  | overflow
  /-- The source reaches the end of a function that has to return something. -/
  | noReturn
  /-- The surroundings cannot behave as the action says; nothing happens. -/
  | impossible
  deriving DecidableEq, Repr

abbrev Outcome := Except Halt

/-- Not a failure of the source. -/
def Halt.Benign (halt : Halt) : Prop := halt = .impossible

/-- `assert(condition)` -/
def assert (which : Assertion) (condition : Prop) [Decidable condition] : Outcome Unit :=
  Lib.require (.assertion which) condition

/-- An assumption on the surroundings, such as the contract of a system call. -/
def assume (condition : Prop) [Decidable condition] : Outcome Unit :=
  Lib.require .impossible condition

theorem assert_of {which : Assertion} {condition : Prop} [Decidable condition]
    (holds : condition) : assert which condition = .ok () :=
  Lib.require_of holds

theorem assume_of {condition : Prop} [Decidable condition] (holds : condition) :
    assume condition = .ok () :=
  Lib.require_of holds

variable {Value : Type} {next : Unit → Outcome Value} {value : Value}

theorem assert_bind_eq_ok {which : Assertion} {condition : Prop} [Decidable condition] :
    assert which condition >>= next = .ok value ↔ condition ∧ next () = .ok value :=
  Lib.require_bind_eq_ok

theorem assume_bind_eq_ok {condition : Prop} [Decidable condition] :
    assume condition >>= next = .ok value ↔ condition ∧ next () = .ok value :=
  Lib.require_bind_eq_ok

section

variable {Value : Type} {next : Unit → Outcome Value} {post : Value → Prop}

theorem ensures_assume {condition : Prop} [Decidable condition]
    (continued : condition → Lib.Ensures Halt.Benign (next ()) post) :
    Lib.Ensures Halt.Benign (assume condition >>= next) post :=
  .guard rfl continued

end

end TransferServer
