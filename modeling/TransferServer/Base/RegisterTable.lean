import Mathlib.Logic.Function.Basic
import TransferServer.Base.Outcome

/-! `muduo::RegisterTable` (RegisterTable.h, RegisterTable.cpp): names that have an identifier,
and the counter behind each identifier. -/

set_option autoImplicit false

namespace TransferServer.Base

structure RegisterTable where
  forId : Bytes → Option Int
  choose : Int → Option Int

/-- `std::map::insert`, which leaves an entry that is there as it is. -/
def insertEntry {Key Value : Type} [DecidableEq Key] (map : Key → Option Value) (key : Key)
    (value : Value) : Key → Option Value :=
  match map key with
  | some _ => map
  | none => Function.update map key (some value)

namespace RegisterTable

def empty : RegisterTable := ⟨fun _ => none, fun _ => none⟩

/-- What `choose_` holds under the identifier of the name, where it has one. -/
def find (table : RegisterTable) (conn : Bytes) : Option Int := (table.forId conn).bind table.choose

/-- The static `count_` comes in and goes out. -/
def myRegister (table : RegisterTable) (count : Int) (conn : Bytes) : RegisterTable × Int :=
  match table.find conn with
  | some _ => (table, count)
  | none =>
      ({ forId := insertEntry table.forId conn count, choose := insertEntry table.choose count 1 },
        count + 1)

def myUnregister (table : RegisterTable) (conn : Bytes) : RegisterTable :=
  match table.forId conn with
  | none => table
  | some id =>
      match table.choose id with
      | none => table
      | some _ =>
          { forId := Function.update table.forId conn none
            choose := Function.update table.choose id none }

def getValue (table : RegisterTable) (conn : Bytes) : Int := (table.find conn).getD 0

def addValue (table : RegisterTable) (conn : Bytes) : RegisterTable :=
  match table.forId conn with
  | none => table
  | some id =>
      match table.choose id with
      | none => table
      | some value => { table with choose := Function.update table.choose id (some (value + 1)) }

end RegisterTable

end TransferServer.Base
