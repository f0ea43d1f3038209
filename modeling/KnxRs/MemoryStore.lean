import KnxRs.TableObjects
import KnxRs.GroupTables

set_option autoImplicit false

/-!
# The downloadable part of a device

The memory area, the four table objects with their segments in it, and the two
runtime tables decoded from it, with everything a telegram can do to them.
-/
namespace KnxRs.MemoryStore
open CoreTypes Properties Octets TableObjects GroupTables

def objAddrTable : UInt8 := 1
def objAssocTable : UInt8 := 2
def objGroupObjTable : UInt8 := 3
def objAppProgram : UInt8 := 4

def eraseConfirmedRestart : UInt8 := 0x01
def eraseFactoryReset : UInt8 := 0x02
def eraseResetIa : UInt8 := 0x03
def eraseResetAp : UInt8 := 0x04
def eraseResetParam : UInt8 := 0x05
def eraseResetLinks : UInt8 := 0x06
def eraseFactoryResetWithoutIa : UInt8 := 0x07

structure Store where
  memoryArea : List UInt8
  addrTableObject : TableObject
  assocTableObject : TableObject
  groupObjectTableObject : TableObject
  appProgramObject : TableObject
  addressTable : AddressTable
  associationTable : AssociationTable
  deriving DecidableEq

namespace Store

def new : Store where
  memoryArea := []
  addrTableObject := .new
  assocTableObject := .new
  groupObjectTableObject := .newLoaded
  appProgramObject := .new
  addressTable := .new
  associationTable := .new

def tableObject (s : Store) (objectIndex : UInt8) : Option TableObject :=
  if objectIndex = objAddrTable then some s.addrTableObject
  else if objectIndex = objAssocTable then some s.assocTableObject
  else if objectIndex = objGroupObjTable then some s.groupObjectTableObject
  else if objectIndex = objAppProgram then some s.appProgramObject
  else none

/-- What is written through `table_object_mut`. -/
def setTableObject (s : Store) (objectIndex : UInt8) (t : TableObject) : Store :=
  if objectIndex = objAddrTable then { s with addrTableObject := t }
  else if objectIndex = objAssocTable then { s with assocTableObject := t }
  else if objectIndex = objGroupObjTable then { s with groupObjectTableObject := t }
  else if objectIndex = objAppProgram then { s with appProgramObject := t }
  else s

def configured (s : Store) : Bool :=
  s.addrTableObject.state = .loaded ∧ s.assocTableObject.state = .loaded ∧
    s.groupObjectTableObject.state = .loaded ∧ s.appProgramObject.state = .loaded

def resolveGroupAddress (s : Store) (asap : UInt16) : Option UInt16 :=
  (s.associationTable.translateAsap asap).bind s.addressTable.getGroupAddress

/-! ## Memory -/

def memSlice (s : Store) (addr len : Nat) : Option (List UInt8) :=
  if addr + len ≤ s.memoryArea.length then some (slice s.memoryArea addr len) else none

def writeToMemory (s : Store) (addr : Nat) (data : List UInt8) : Store × Bool :=
  let needed := addr + data.length
  if needed > maxMemorySize then (s, false)
  else ({ s with memoryArea := overwrite (grow s.memoryArea needed 0) addr data }, true)

def applyFill (s : Store) (fill : Option Fill) : Store :=
  match fill with
  | none => s
  | some f =>
    let start := f.offset.toNat
    let finish := start + f.size.toNat
    if finish > maxMemorySize then s
    else
      let filled := List.replicate f.size.toNat f.fillByte
      { s with memoryArea := overwrite (grow s.memoryArea finish 0) start filled }

/-! ## Load control -/

def reloadRuntimeTable (s : Store) (objectIndex : UInt8) : Store :=
  if objectIndex = objAddrTable then
    { s with addressTable := s.addressTable.load (s.addrTableObject.data s.memoryArea) }
  else if objectIndex = objAssocTable then
    { s with associationTable := s.associationTable.load (s.assocTableObject.data s.memoryArea) }
  else s

/-- A write to `LoadStateControl`, as `handle_property_write` intercepts it. -/
def loadControl (s : Store) (objectIndex : UInt8) (data : List UInt8) : Store :=
  match s.tableObject objectIndex with
  | none => s
  | some t =>
    let (t, loaded, fill) := t.handleLoadEvent data s.memoryArea.length
    let s := (s.setTableObject objectIndex t).applyFill fill
    if loaded then s.reloadRuntimeTable objectIndex else s

/-! ## Master reset -/

def resetLinkTables (s : Store) : Store :=
  { s with
    addrTableObject := .new
    assocTableObject := .new
    addressTable := .new
    associationTable := .new }

/-- What `apply_master_reset` does to tables and memory. -/
def masterReset (s : Store) (eraseCode : UInt8) : Store :=
  if eraseCode = eraseResetLinks then s.resetLinkTables
  else if eraseCode = eraseResetAp ∨ eraseCode = eraseResetParam then
    { s with appProgramObject := .new }
  else if eraseCode = eraseFactoryReset ∨ eraseCode = eraseFactoryResetWithoutIa then
    { s.resetLinkTables with appProgramObject := .new, memoryArea := [] }
  else s

end Store

/-! ## Events -/

/-- Everything a served request can do to the store. -/
inductive StoreEvent where
  | idle
  | written (addr : Nat) (data : List UInt8)
  | loadControl (objectIndex : UInt8) (data : List UInt8)
  | masterReset (eraseCode : UInt8)
  deriving DecidableEq

def Store.apply (s : Store) : StoreEvent → Store
  | .idle => s
  | .written addr data => (s.writeToMemory addr data).1
  | .loadControl objectIndex data => s.loadControl objectIndex data
  | .masterReset eraseCode => s.masterReset eraseCode

end KnxRs.MemoryStore
