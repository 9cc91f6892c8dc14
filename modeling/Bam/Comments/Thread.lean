import Bam.Lib.Forest
import Bam.Lib.JsMap
import Bam.Sdk.Types
import Mathlib.Data.List.Sort

namespace Bam
namespace Comments

/-!
# Comment threads

`buildThread` keeps the messages whose parents lead to a root of the list,
collects the replies of each, and sets depths and children in one breadth-first
pass.  The nodes it changes are objects: they are kept by hash, and a reference
to one is its message.  Hashes are values, so `toLowerCase` does nothing, and
the lowercase name of a sender is left out.
-/

structure DecodedMessage where
  messageHash : Bytes32
  sender : Address
  postIdHash : Bytes32
  timestamp : Int
  content : List Char
  parentMessageHash : Option Bytes32
  pending : Bool
  deriving Repr, DecidableEq

/-- `CommentNode`. -/
inductive CommentNode where
  | node
      (message : DecodedMessage)
      (children : List CommentNode)
      (depth displayDepth : Nat)

/-- A node while the thread is built; its children are references. -/
structure NodeRecord where
  message : DecodedMessage
  children : List DecodedMessage
  depth : Nat
  displayDepth : Nat
  deriving Repr, DecidableEq

abbrev NodeMap := JsMap Bytes32 NodeRecord

def HARD_CAP : Nat := 1024

/-- `clampDepth`. -/
def clampDepth (depth : Nat) : Nat :=
  if depth ≤ 0 then 0 else if 2 ≤ depth then 2 else 1

/-- `compareNodes`, by its sign: hashes are compared as hex texts of one
length. -/
def compareNodes (first second : DecodedMessage) : Int :=
  if first.timestamp ≠ second.timestamp then
    first.timestamp - second.timestamp
  else
    (first.messageHash.toNat : Int) - second.messageHash.toNat

/-- `sort(compareNodes)`, which is stable. -/
def sortNodes (messages : List DecodedMessage) : List DecodedMessage :=
  messages.insertionSort fun first second =>
    compareNodes first second ≤ 0

/-- The loop of `isReachableRoot`. -/
def climb (byHash : JsMap Bytes32 DecodedMessage) :
    Nat → List Bytes32 → DecodedMessage → Bool
  | 0, _, _ => false
  | steps + 1, visited, cursor =>
      if cursor.messageHash ∈ visited then false
      else
        match cursor.parentMessageHash with
        | none => true
        | some parent =>
            match byHash.get? parent with
            | none => false
            | some next =>
                climb byHash steps (cursor.messageHash :: visited) next

/-- `isReachableRoot`. -/
def isReachableRoot
    (byHash : JsMap Bytes32 DecodedMessage)
    (start : DecodedMessage) : Bool :=
  climb byHash HARD_CAP [] start

/-- The index of the messages; of messages with one hash the last is kept. -/
def indexByHash
    (messages : List DecodedMessage) : JsMap Bytes32 DecodedMessage :=
  messages.foldl (fun map message => map.set message.messageHash message)
    JsMap.empty

/-- The messages that are neither orphaned nor on or below a cycle. -/
def survivorsOf
    (messages : List DecodedMessage) : JsMap Bytes32 DecodedMessage :=
  messages.foldl
    (fun map message =>
      if isReachableRoot (indexByHash messages) message then
        map.set message.messageHash message
      else map)
    JsMap.empty

/-- The nodes of the survivors, with nothing set yet. -/
def allNodesOf
    (survivors : JsMap Bytes32 DecodedMessage) : NodeMap :=
  (survivors.entries.map Prod.snd).foldl
    (fun map message =>
      map.set message.messageHash {
        message := message
        children := []
        depth := 0
        displayDepth := 0 })
    JsMap.empty

/-- `childrenOf` and `roots`. -/
structure Groups where
  childrenOf : JsMap Bytes32 (List DecodedMessage)
  roots : List DecodedMessage

/-- A node goes to the replies of its parent, or to the roots. -/
def groupNode
    (allNodes : NodeMap)
    (groups : Groups)
    (node : DecodedMessage) : Groups :=
  match node.parentMessageHash with
  | none => { groups with roots := groups.roots ++ [node] }
  | some parentKey =>
      if (allNodes.get? parentKey).isSome then
        { groups with
          childrenOf := groups.childrenOf.set parentKey
            ((groups.childrenOf.get? parentKey).getD [] ++ [node]) }
      else { groups with roots := groups.roots ++ [node] }

def groupNodes (allNodes : NodeMap) : Groups :=
  (allNodes.entries.map fun entry => entry.2.message).foldl
    (groupNode allNodes)
    { childrenOf := JsMap.empty, roots := [] }

/-- Change the node of a key. -/
def modifyNode
    (key : Bytes32)
    (change : NodeRecord → NodeRecord)
    (nodes : NodeMap) : NodeMap :=
  match nodes.get? key with
  | none => nodes
  | some record => nodes.set key (change record)

def depthOf
    (nodes : NodeMap)
    (message : DecodedMessage) : Nat :=
  ((nodes.get? message.messageHash).map NodeRecord.depth).getD 0

/-- One reply of a node: its depth is set, and it becomes a child. -/
def attach
    (node : DecodedMessage)
    (nodes : NodeMap)
    (kid : DecodedMessage) : NodeMap :=
  let depth := depthOf nodes node + 1
  let deeper :=
    modifyNode kid.messageHash
      (fun record => { record with
        depth := depth
        displayDepth := clampDepth depth })
      nodes
  modifyNode node.messageHash
    (fun record => { record with children := record.children ++ [kid] })
    deeper

/-- The replies of a node, as the breadth-first pass sorts them. -/
def sortedKids
    (childrenOf : JsMap Bytes32 (List DecodedMessage))
    (node : DecodedMessage) : List DecodedMessage :=
  sortNodes ((childrenOf.get? node.messageHash).getD [])

/-- One turn of the breadth-first pass. -/
def attachKids
    (childrenOf : JsMap Bytes32 (List DecodedMessage))
    (nodes : NodeMap)
    (node : DecodedMessage) : NodeMap :=
  (sortedKids childrenOf node).foldl (attach node) nodes

/-- The object a reference stands for, down to so many levels. -/
def toCommentNode
    (nodes : NodeMap) : Nat → DecodedMessage → Option CommentNode
  | 0, _ => none
  | levels + 1, message =>
      match nodes.get? message.messageHash with
      | none => none
      | some record =>
          match record.children.mapM (toCommentNode nodes levels) with
          | none => none
          | some children =>
              some (.node record.message children record.depth
                record.displayDepth)

/-- `buildThread`, with so many turns for its `while` loop; `none` where they
do not suffice, or where the nodes are no finite trees. -/
def buildThreadWithin
    (turns : Nat)
    (messages : List DecodedMessage) : Option (List CommentNode) :=
  let allNodes := allNodesOf (survivorsOf messages)
  let groups := groupNodes allNodes
  match Forest.walk (sortedKids groups.childrenOf)
      (attachKids groups.childrenOf) turns groups.roots allNodes with
  | none => none
  | some nodes =>
      (sortNodes groups.roots).mapM (toCommentNode nodes HARD_CAP)

end Comments
end Bam
