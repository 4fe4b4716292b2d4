import OptimalAssignment.Sharing
import OptimalAssignment.Value

/-!
Drafts: values as they are going to be written. A part that comes up more than once gets an anchor
where it comes first, and an alias everywhere else. Anchors are numbered from one in the order in
which their parts come up for the second time.
-/
namespace OptimalAssignment.Yaml

/-- A value as it is going to be written; the number of an anchor stands before what it names. -/
inductive Draft where
  | scalar (anchor : Option Nat) (a : Atom)
  | sequence (anchor : Option Nat) (items : List Draft)
  | mapping (anchor : Option Nat) (isSet : Bool) (entries : List (Draft × Draft))
  | alias (number : Nat)
deriving Repr, Inhabited

namespace Draft

/-- Whether a thing that is shared gets an anchor: a moment or a collection. -/
def mayAnchor : Atom → Bool
  | .moment _ => true
  | _ => false

/-- The draft of an atom at a place, with the number of what it shares in place of an anchor. -/
def ofAtom (shared : Sharing) (p : Place) (a : Atom) : Draft :=
  .scalar (if mayAnchor a then shared.label? p else none) a

mutual

/-- The draft of a value at a place, with the numbers of what is shared in place of anchors. -/
def ofValue (shared : Sharing) (p : Place) : Value → Draft
  | .atom a => ofAtom shared p a
  | .list items => .sequence (shared.label? p) (ofItems shared p 0 items)
  | .pair a b =>
    .sequence (shared.label? p)
      [ofValue shared (p ++ [.item 0]) a, ofValue shared (p ++ [.item 1]) b]
  | .set items =>
    .mapping (shared.label? p) true
      (items.map fun a => (ofAtom shared (p ++ [.key a]) a, .scalar none .null))
  | .table es => .mapping (shared.label? p) false (ofEntries shared p es)
  | .loop => .scalar none .null

def ofItems (shared : Sharing) (p : Place) : Nat → List Value → List Draft
  | _, [] => []
  | n, v :: vs => ofValue shared (p ++ [.item n]) v :: ofItems shared p (n + 1) vs

def ofEntries (shared : Sharing) (p : Place) : List (Atom × Value) → List (Draft × Draft)
  | [] => []
  | (a, v) :: es =>
    (ofAtom shared (p ++ [.key a]) a, ofValue shared (p ++ [.entry a]) v) :: ofEntries shared p es

end

/-- What has come up so far: the numbers met, and those met again, in the order of meeting. -/
structure Met where
  once : List Nat := []
  again : List Nat := []

/-- Come across a number; what lies below it is looked at only the first time. -/
def Met.come (m : Met) (label : Option Nat) (below : Met → Met) : Met :=
  match label with
  | none => below m
  | some n =>
    if m.once.contains n then
      if m.again.contains n then m else { m with again := m.again ++ [n] }
    else below { m with once := n :: m.once }

mutual

def meet (m : Met) : Draft → Met
  | .scalar label _ => m.come label id
  | .sequence label items => m.come label fun m => meetItems m items
  | .mapping label _ entries => m.come label fun m => meetEntries m entries
  | .alias _ => m

def meetItems (m : Met) : List Draft → Met
  | [] => m
  | d :: ds => meetItems (meet m d) ds

def meetEntries (m : Met) : List (Draft × Draft) → Met
  | [] => m
  | (k, v) :: es => meetEntries (meet (meet m k) v) es

end

/-- The place of a number among those met again, counted from one. -/
def anchorOf? (again : List Nat) (label : Option Nat) : Option Nat :=
  label.bind fun n => (again.idxOf? n).map (· + 1)

/-- The draft at hand if it comes first under its number, and an alias otherwise, with the anchors
set so far. -/
def place (again done : List Nat) (label : Option Nat)
    (draft : Option Nat → List Nat → Draft × List Nat) : Draft × List Nat :=
  match anchorOf? again label with
  | none => draft none done
  | some n => if done.contains n then (.alias n, done) else draft (some n) (n :: done)

mutual

/-- A draft with anchors and aliases in place of the numbers of what is shared. -/
def settle (again done : List Nat) : Draft → Draft × List Nat
  | .scalar label a => place again done label fun anchor done => (.scalar anchor a, done)
  | .sequence label items =>
    place again done label fun anchor done =>
      let (items, done) := settleItems again done items
      (.sequence anchor items, done)
  | .mapping label isSet entries =>
    place again done label fun anchor done =>
      let (entries, done) := settleEntries again done entries
      (.mapping anchor isSet entries, done)
  | .alias n => (.alias n, done)

def settleItems (again done : List Nat) : List Draft → List Draft × List Nat
  | [] => ([], done)
  | d :: ds =>
    let (d, done) := settle again done d
    let (ds, done) := settleItems again done ds
    (d :: ds, done)

def settleEntries (again done : List Nat) :
    List (Draft × Draft) → List (Draft × Draft) × List Nat
  | [] => ([], done)
  | (k, v) :: es =>
    let (k, done) := settle again done k
    let (v, done) := settle again done v
    let (es, done) := settleEntries again done es
    ((k, v) :: es, done)

end

/-- The draft of a value of which some parts are shared. -/
def ofShared (v : Value) (shared : Sharing) : Draft :=
  let draft := ofValue shared [] v
  (settle (meet {} draft).again [] draft).1

def anchorName (n : Nat) : String :=
  "id" ++ Moment.padded 3 n

end Draft

end OptimalAssignment.Yaml
