import ZoneBuffer.Basic.Parameter
import ZoneBuffer.Lib.IterList

set_option autoImplicit false

/-! # The replacement strategies

`ZALP` and `LRU` (`src/zalp.cpp`) on lists with iterators. `ZALP` keeps all resident frames in
`lList`, most recently used first, and each of them also in `cList` or in `dList`; three maps
hold the iterators. The frames not in use are in `fList`.

`workRegSize` and `defBufSize` are `WORK_REG_SIZE` and `DEF_BUF_SIZE`. What `cList->back()`
gives on an empty list is not defined; it is the argument `junk`. -/

namespace ZoneBuffer

/-- An iterator found in one of the maps. -/
def findIter (m : PartialMap FrameId Nat) (id : FrameId) : Except Fault Nat :=
  match m id with
  | some it => .ok it
  | none => .error .outOfRange

/-- `list::erase`. -/
def eraseIter (l : IterList FrameId) (it : Nat) : Except Fault (IterList FrameId) :=
  match l.erase it with
  | some l' => .ok l'
  | none => .error .badIter

/-- `list::back`, undefined on an empty list. -/
def backOf (l : IterList FrameId) : Except Fault FrameId :=
  match l.back? with
  | some id => .ok id
  | none => .error .badIter

/-! ## ZALP -/

structure Zalp where
  lList : IterList FrameId
  fList : IterList FrameId
  cList : IterList FrameId
  dList : IterList FrameId
  lMap : PartialMap FrameId Nat
  cMap : PartialMap FrameId Nat
  dMap : PartialMap FrameId Nat

namespace Zalp

def init (defBufSize : Nat) : Zalp where
  lList := .empty
  fList := .ofList (List.range defBufSize)
  cList := .empty
  dList := .empty
  lMap := .empty
  cMap := .empty
  dMap := .empty

/-- `get_frame`; the second component says that the frame was free. -/
def getFrame (z : Zalp) : Except Fault (FrameId × Bool × Zalp) :=
  if z.fList.size ≠ 0 then do
    let id ← backOf z.fList
    .ok (id, true, { z with fList := z.fList.popBack })
  else if z.cList.size = 0 then .error .emptyClean
  else do
    let id ← backOf z.cList
    let z := { z with cList := z.cList.popBack, cMap := z.cMap.erase id }
    let iterL ← findIter z.lMap id
    let lList ← eraseIter z.lList iterL
    .ok (id, false, { z with lList := lList, lMap := z.lMap.erase id })

/-- `*it`, the frames from the iterator on being `l`. At the end of the list there is none and
what is read is not defined: it is the argument `past`. -/
def deref (past : FrameId) (l : List FrameId) : FrameId := l.head?.getD past

/-- `it++`, undefined at the end of the list. -/
def advance : List FrameId → Except Fault (List FrameId)
  | [] => .error .badIter
  | _ :: l => .ok l

/-- The loop of `is_correct`: match each frame of `lList` against the next of `cList` and the
next of `dList`. Neither iterator is compared with the end of its list. -/
def matchLists (pastC pastD : FrameId) :
    List FrameId → List FrameId → List FrameId → Except Fault Unit
  | [], p, q => if p = [] ∧ q = [] then .ok () else .error .incorrect
  | pos :: rest, p, q =>
      if pos = deref pastC p then do
        let p ← advance p
        matchLists pastC pastD rest p q
      else if pos = deref pastD q then do
        let q ← advance q
        matchLists pastC pastD rest p q
      else .error .incorrect

/-- `is_correct`; `pastC` and `pastD` are what `*cList->end()` and `*dList->end()` read. -/
def isCorrect (pastC pastD : FrameId) (z : Zalp) : Except Fault Unit :=
  if z.lList.size = z.dList.size + z.cList.size then
    matchLists pastC pastD z.lList.toList z.cList.toList z.dList.toList
  else .error .incorrect

def isEvict (workRegSize : Nat) (junk : FrameId) (z : Zalp) : Except Fault Bool :=
  if z.fList.size ≠ 0 ∨ z.lList.size ≤ workRegSize ∨ workRegSize < z.cList.size then .ok false
  else
    let iterC := z.cList.back?.getD junk
    match z.cMap iterC with
    | none => .ok true
    | some _ => do
        let iterL ← findIter z.lMap iterC
        match z.lList.index? iterL with
        | some i => .ok (i < workRegSize)
        | none => .error .badIter

/-- The loop of `get_candidate`: walk back over `n` frames, adding each at the front. -/
def walkBack : Nat → List FrameId → List FrameId → Except Fault (List FrameId)
  | 0, _, candidates => .ok candidates
  | _ + 1, [], _ => .error .badIter
  | n + 1, id :: before, candidates => walkBack n before (id :: candidates)

def getCandidate (defBufSize workRegSize : Nat) (z : Zalp) : Except Fault (List FrameId) :=
  walkBack (defBufSize - workRegSize) z.dList.toList.reverse []

def getCandidateCflru (z : Zalp) : Except Fault (List FrameId) := do
  let id ← backOf z.dList
  .ok [id]

def setDirty (z : Zalp) (id : FrameId) : Except Fault Zalp := do
  let z := match z.dMap id with
    | none => { z with
        dList := z.dList.pushFront id
        dMap := z.dMap.insert id z.dList.fresh }
    | some _ => z
  match z.cMap id with
  | some p => do
      let cList ← eraseIter z.cList p
      .ok { z with cList := cList, cMap := z.cMap.erase id }
  | none => .ok z

/-- One iteration of `update_dirty`. -/
def releaseFrame (z : Zalp) (id : FrameId) : Except Fault Zalp := do
  let iterD ← findIter z.dMap id
  let dList ← eraseIter z.dList iterD
  let iterL ← findIter z.lMap id
  let lList ← eraseIter z.lList iterL
  .ok { z with
    dList := dList
    dMap := z.dMap.erase id
    lList := lList
    lMap := z.lMap.erase id
    fList := z.fList.pushBack id }

def updateDirty (victimList : List FrameId) (z : Zalp) : Except Fault Zalp :=
  victimList.foldlM releaseFrame z

/-- One iteration of `dirty_to_clean`. -/
def cleanFrame (z : Zalp) (id : FrameId) : Except Fault Zalp := do
  let iterD ← findIter z.dMap id
  let dList ← eraseIter z.dList iterD
  match z.cMap id with
  | some _ => .error .alreadyClean
  | none =>
      .ok { z with
        dList := dList
        dMap := z.dMap.erase id
        cList := z.cList.pushBack id
        cMap := z.cMap.insert id z.cList.fresh }

def dirtyToClean (victimList : List FrameId) (z : Zalp) : Except Fault Zalp :=
  victimList.foldlM cleanFrame z

def push (z : Zalp) (id : FrameId) (isDirty : Bool) : Zalp :=
  let z := { z with
    lList := z.lList.pushFront id
    lMap := z.lMap.insert id z.lList.fresh }
  if isDirty = false then
    { z with cList := z.cList.pushFront id, cMap := z.cMap.insert id z.cList.fresh }
  else
    { z with dList := z.dList.pushFront id, dMap := z.dMap.insert id z.dList.fresh }

def update (z : Zalp) (id : FrameId) (isDirty : Bool) : Except Fault Zalp := do
  let iterL ← findIter z.lMap id
  let lList ← eraseIter z.lList iterL
  let z := { z with lList := lList, lMap := z.lMap.erase id }
  match z.cMap id with
  | some p => do
      let cList ← eraseIter z.cList p
      .ok ({ z with cList := cList, cMap := z.cMap.erase id }.push id isDirty)
  | none =>
      match z.dMap id with
      | some p => do
          let dList ← eraseIter z.dList p
          .ok ({ z with dList := dList, dMap := z.dMap.erase id }.push id isDirty)
      | none => .error .notListed

end Zalp

/-! ## LRU -/

/-- `LRU`. An iterator stays in the map when its frame is taken as a victim. -/
structure Lru where
  lList : IterList FrameId
  lMap : PartialMap FrameId Nat

namespace Lru

def init : Lru := ⟨.empty, .empty⟩

def getVictim (r : Lru) : Except Fault (FrameId × Lru) := do
  let victim ← backOf r.lList
  .ok (victim, { r with lList := r.lList.popBack })

def push (r : Lru) (id : FrameId) : Lru where
  lList := r.lList.pushFront id
  lMap := r.lMap.insertOrAssign id r.lList.fresh

def update (r : Lru) (id : FrameId) : Except Fault Lru :=
  match r.lMap id with
  | some iter => do
      let lList ← eraseIter r.lList iter
      .ok ({ r with lList := lList }.push id)
  | none => .error .badIter

end Lru

end ZoneBuffer
