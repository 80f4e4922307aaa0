import ExprFront.Proofs.Tree.Fields
import ExprFront.Tree.Json

/-!
# Trees back from JSON

The value of a tree holds all that the tree holds besides positions: a decoder that looks up the
class of an object and then the fields of that class builds the tree again. Operators are written as
texts, like names, so it is the field that tells which of the two a text is. Two values are
equal, as programs compare dictionaries and lists, exactly when their trees are.
-/

namespace ExprFront

/-! ## Equality of values -/

namespace Json

/-- The number that a truth value counts as. -/
def numberOf (value : Bool) : Binary64 :=
  if value then .ofRatio false 1 1 else .zero false

mutual

/-- Equality of values: numeric on numbers, among which truth values count, and regardless of the
order of members on objects. -/
def equals : Json → Json → Bool
  | .null, .null => true
  | .bool value, .bool value' => value == value'
  | .bool value, .number x => (numberOf value).equals x
  | .number x, .bool value => x.equals (numberOf value)
  | .number x, .number x' => x.equals x'
  | .text s, .text s' => s == s'
  | .array items, .array items' => equalsAll items items'
  | .object members, .object members' =>
    members.length == members'.length && holdsAll members members'
  | _, _ => false

/-- Equality of rows of values. -/
def equalsAll : List Json → List Json → Bool
  | [], [] => true
  | item :: rest, item' :: rest' => equals item item' && equalsAll rest rest'
  | _, _ => false

/-- Has every member an equal one of the same key in the second list? -/
def holdsAll : List (String × Json) → List (String × Json) → Bool
  | [], _ => true
  | (key, value) :: rest, members' =>
    (match members'.lookup key with
      | some value' => equals value value'
      | none => false) && holdsAll rest members'

end

end Json

theorem Payload.equals_toJson (s t : Payload) : s.toJson.equals t.toJson = s.equals t := by
  cases s <;> cases t <;> simp only [toJson, Json.equals, equals]

/-! ## Decoding -/

/-- What a value decodes to: something without parts, a tree or a row of trees. -/
inductive Decoded where
  | payload (value : Payload)
  | bool (value : Bool)
  | tree (tree : Node)
  | trees (trees : List Node)

namespace Decoded

def payload? : Decoded → Option Payload
  | .payload value => some value
  | _ => none

def bool? : Decoded → Option Bool
  | .bool value => some value
  | _ => none

def text? : Decoded → Option String
  | .payload (.text value) => some value
  | _ => none

def tree? : Decoded → Option Node
  | .tree value => some value
  | _ => none

def trees? : Decoded → Option (List Node)
  | .trees value => some value
  | _ => none

end Decoded

namespace Node

/-- The tree of an object with these members. -/
def ofMembers? (members : List (String × Decoded)) : Option Node := do
  let payload (key : String) := members.lookup key >>= Decoded.payload?
  let text (key : String) := members.lookup key >>= Decoded.text?
  let node (key : String) := members.lookup key >>= Decoded.tree?
  let nodes (key : String) := members.lookup key >>= Decoded.trees?
  let mathOp := text "op" >>= MathOp.ofSymbol?
  let compareOp := text "op" >>= CompareOp.ofSymbol?
  match ← text "type" with
  | "ASTNode" => return .anyNode .nowhere
  | "Expression" => return .anyExpression .nowhere
  | "NumberLiteral" => return .number .nowhere (← payload "value")
  | "BoolLiteral" => return .bool .nowhere (← members.lookup "value" >>= Decoded.bool?)
  | "Var" => return .var .nowhere (← payload "name")
  | "UserVar" => return .userVar .nowhere (← payload "name")
  | "Block" => return .block .nowhere (← nodes "exprs") (← node "ret")
  | "IfElse" => return .ifElse .nowhere (← node "cond") (← node "yes") (← node "no")
  | "Call" => return .call .nowhere (← payload "name") (← nodes "args")
  | "Assign" => return .assign .nowhere (← payload "name") (← node "value")
  | "MathAssign" => return .mathAssign .nowhere (← mathOp) (← payload "name") (← node "value")
  | "Negate" => return .negate .nowhere (← node "operand")
  | "Not" => return .not .nowhere (← node "operand")
  | "MathBinOp" => return .math .nowhere (← mathOp) (← node "left") (← node "right")
  | "CompareOp" => return .compare .nowhere (← compareOp) (← node "left") (← node "right")
  | _ => none

mutual

/-- What a value stands for. -/
def decode? : Json → Option Decoded
  | .null => some (.payload .absent)
  | .bool value => some (.bool value)
  | .number value => some (.payload (.number value))
  | .text value => some (.payload (.text value))
  | .array items => (decodeAll? items).map .trees
  | .object members => ((decodeMembers? members) >>= ofMembers?).map .tree

/-- The trees that the values stand for. -/
def decodeAll? : List Json → Option (List Node)
  | [] => some []
  | item :: rest => do return (← decode? item >>= Decoded.tree?) :: (← decodeAll? rest)

/-- The members with what their values stand for. -/
def decodeMembers? : List (String × Json) → Option (List (String × Decoded))
  | [] => some []
  | (key, value) :: rest => do return (key, ← decode? value) :: (← decodeMembers? rest)

end

/-- The tree that a value stands for; its nodes have no positions. -/
def ofJson? (value : Json) : Option Node :=
  decode? value >>= Decoded.tree?

theorem decode?_payload (payload : Payload) :
    decode? payload.toJson = some (.payload payload) := by
  cases payload <;> rfl

mutual

theorem decode?_toJson (node : Node) : decode? node.toJson = some (.tree node.unplaced) := by
  cases node
  all_goals
    simp [toJson, jsonObject, decode?, decodeMembers?, decode?_payload, decode?_toJson,
      decodeAll?_toJsonAll, ofMembers?, List.lookup_cons, Decoded.text?, Decoded.payload?,
      Decoded.bool?, Decoded.tree?, Decoded.trees?, unplaced]

theorem decodeAll?_toJsonAll (nodes : List Node) :
    decodeAll? (toJsonAll nodes) = some (unplacedAll nodes) := by
  cases nodes with
  | nil => rfl
  | cons node rest =>
    simp [toJsonAll, decodeAll?, decode?_toJson, decodeAll?_toJsonAll, Decoded.tree?, unplacedAll]

end

/-- The value of a tree decodes to the tree without positions. -/
theorem ofJson?_toJson (node : Node) : ofJson? node.toJson = some node.unplaced := by
  simp [ofJson?, decode?_toJson, Decoded.tree?]

/-! ## Equal values -/

theorem exists_jsonObject (node : Node) :
    ∃ members, node.toJson = jsonObject node.className members := by
  cases node <;> exact ⟨_, rfl⟩

/-- Objects of different classes are different. -/
theorem equals_jsonObject_of_ne {s t : String} (h : s ≠ t) (members members' : List (String × Json)) :
    (jsonObject s members).equals (jsonObject t members') = false := by
  simp [jsonObject, Json.equals, Json.holdsAll, h]

mutual

theorem equals_toJson (a b : Node) : a.toJson.equals b.toJson = a.equals b := by
  by_cases h : a.className = b.className
  · cases a <;> cases b <;> first
      | exact absurd h (of_decide_eq_false rfl)
      | simp [toJson, jsonObject, Json.equals, Json.holdsAll, List.lookup_cons, equals,
          Payload.equals_toJson, equals_toJson, equalsAll_toJsonAll, MathOp.symbol_beq,
          CompareOp.symbol_beq, Bool.and_assoc]
  · obtain ⟨members, ha⟩ := exists_jsonObject a
    obtain ⟨members', hb⟩ := exists_jsonObject b
    rw [ha, hb, equals_jsonObject_of_ne h, equals_of_className_ne h]

theorem equalsAll_toJsonAll (as bs : List Node) :
    Json.equalsAll (toJsonAll as) (toJsonAll bs) = equalsAll as bs := by
  cases as <;> cases bs <;>
    simp only [toJsonAll, Json.equalsAll, equalsAll, equals_toJson, equalsAll_toJsonAll]

end

/-- The value of a tree loses nothing but positions. Decoded again, it gives a tree that is alike
and, where no number is undefined, equal; and two trees have equal values exactly if they are
equal. -/
theorem toJson_faithful :
    (∀ tree : Node, ∃ decoded, ofJson? tree.toJson = some decoded ∧
      decoded.unplaced = tree.unplaced ∧
      ((∀ p ∈ tree.payloads, p.isDefined = true) → decoded.equals tree = true)) ∧
    ∀ a b : Node, a.toJson.equals b.toJson = true ↔ a.equals b = true := by
  refine ⟨fun tree => ⟨tree.unplaced, ofJson?_toJson tree, unplaced_unplaced tree, fun h => ?_⟩,
    fun a b => by rw [equals_toJson]⟩
  rw [← equals_unplaced, unplaced_unplaced, equals_unplaced]
  exact equals_self_of_payloads fun p hp => Payload.equals_self (h p hp)

/-- A call with a negative zero and a variable that is named like an operator. -/
theorem toJson_faithful_call :
    let tree := Node.call ⟨1, 1⟩ (.text "f")
      [.number ⟨1, 3⟩ (.number (.zero true)), .var ⟨1, 7⟩ (.text "+")]
    (∀ p ∈ tree.payloads, p.isDefined = true) ∧
      ∃ decoded, ofJson? tree.toJson = some decoded ∧ decoded.equals tree = true := by
  intro tree
  have hdefined : ∀ p ∈ tree.payloads, p.isDefined = true := by
    simp [tree, payloads, preorder, preorderAll, fields, Field.payload?, Payload.isDefined,
      Binary64.zero]
  obtain ⟨decoded, hdecoded, -, hequals⟩ := toJson_faithful.1 tree
  exact ⟨hdefined, decoded, hdecoded, hequals hdefined⟩

end Node

end ExprFront
