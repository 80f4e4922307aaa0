import ExprFront.Proofs.Text.Unbroken
import ExprFront.Proofs.Text.Unquoting
import ExprFront.Proofs.Tree.Fields
import ExprFront.Tree.Outline

/-!
# Labels of nodes

The label of a node begins with its class, and a class has no blank in it, so the label tells the
class. What follows tells all fields of the node that have no nodes in them. Labels take one line.
-/

namespace ExprFront

/-! ## Symbols -/

section

variable {s t : String}

theorem MathOp.symbol_append_inj {op op' : MathOp} (h : op.symbol ++ s = op'.symbol ++ t) :
    op = op' ∧ s = t := by
  have hone : ∀ op : MathOp, op.symbol.toList.length = 1 := by
    intro op
    cases op <;> rfl
  have hlist := congrArg String.toList h
  rw [String.toList_append, String.toList_append] at hlist
  obtain ⟨hsymbol, hrest⟩ := List.append_inj hlist ((hone op).trans (hone op').symm)
  exact ⟨symbol_inj.1 (String.toList_inj.1 hsymbol), String.toList_inj.1 hrest⟩

end

/-! ## Fields -/

namespace Field

/-- Are the fields of the same sort, and the same where they hold no nodes? -/
def Fits : Field → Field → Prop
  | .payload value, .payload value' => value = value'
  | .bool value, .bool value' => value = value'
  | .symbol text, .symbol text' => text = text'
  | .node _, .node _ => True
  | .nodes _, .nodes _ => True
  | _, _ => False

/-- What a label shows of a field, behind a blank. -/
def shown : Field → String
  | .payload value => " " ++ value.display
  | .bool value => " " ++ Node.showBool value
  | .symbol text => " " ++ text
  | _ => ""

theorem shown_eq (field : Field) : field.shown = "" ∨ ∃ text, field.shown = " " ++ text := by
  cases field with
  | payload value => exact .inr ⟨_, rfl⟩
  | bool value => exact .inr ⟨_, rfl⟩
  | symbol text => exact .inr ⟨_, rfl⟩
  | node child => exact .inl rfl
  | nodes children => exact .inl rfl

end Field

namespace Node

theorem showBool_inj {value value' : Bool} :
    showBool value = showBool value' ↔ value = value' := by
  cases value <;> cases value' <;> decide

theorem label_eq (node : Node) :
    node.label = node.className ++ String.join (node.fields.map fun f => f.2.shown) := by
  cases node <;> rw [← String.toList_inj] <;>
    simp [label, className, fields, Field.shown, String.toList_append]

theorem blank_notMem_className (node : Node) : ' ' ∉ node.className.toList := by
  cases node <;> simp only [className] <;> decide

/-- A class begins with what begins neither an indentation nor a line that closes a list. -/
theorem exists_className_cons (node : Node) :
    ∃ c rest, node.className.toList = c :: rest ∧ c ≠ ' ' ∧ c ≠ ']' := by
  have hhead : node.className.toList.head?.any (fun c => c ≠ ' ' && c ≠ ']') = true := by
    cases node <;> simp only [className] <;> decide
  obtain ⟨c, hc, hne⟩ := (Option.any_eq_true _ _).1 hhead
  obtain ⟨rest, hcons⟩ := List.head?_eq_some_iff.1 hc
  exact ⟨c, rest, hcons, by simpa using hne⟩

/-- What is shown of fields is nothing or begins with a blank. -/
theorem takeWhile_shown (fields : List (String × Field)) :
    (String.join (fields.map fun f => f.2.shown)).toList.takeWhile (· ≠ ' ') = [] := by
  induction fields with
  | nil => rfl
  | cons f rest ih =>
    rw [String.toList_join] at ih ⊢
    rw [List.map_cons, List.flatMap_cons]
    rcases f.2.shown_eq with hnone | ⟨text, hsome⟩
    · rw [hnone]
      exact ih
    · rw [hsome, String.toList_append]
      rfl

/-- A label tells the class. -/
theorem className_eq_of_label {a b : Node} (h : a.label = b.label) :
    a.className = b.className := by
  have htake : ∀ node : Node,
      node.label.toList.takeWhile (· ≠ ' ') = node.className.toList := by
    intro node
    have hclass : ∀ c ∈ node.className.toList, decide (c ≠ ' ') = true := fun c hc =>
      decide_eq_true fun heq => blank_notMem_className node (heq ▸ hc)
    rw [label_eq, String.toList_append, List.takeWhile_append_of_pos hclass, takeWhile_shown,
      List.append_nil]
  rw [← String.toList_inj, ← htake a, ← htake b, h]

/-- Nodes with the same label differ below them only. -/
theorem fits_of_label {a b : Node} (h : a.label = b.label) :
    a.className = b.className ∧
      List.Forall₂ (fun f g => f.1 = g.1 ∧ f.2.Fits g.2) a.fields b.fields := by
  have hclass := className_eq_of_label h
  rw [label_eq, label_eq, hclass, String.append_right_inj] at h
  refine ⟨hclass, ?_⟩
  cases a <;> cases b <;> first
    | exact absurd hclass (of_decide_eq_false rfl)
    | simp [fields, Field.shown, Payload.display_injective.eq_iff, showBool_inj] at h
  case mathAssign.mathAssign op name _ _ op' name' _ =>
    rw [String.append_assoc, String.append_assoc, String.append_right_inj] at h
    obtain ⟨rfl, hname⟩ := MathOp.symbol_append_inj h
    rw [String.append_right_inj, Payload.display_injective.eq_iff] at hname
    simp [fields, Field.Fits, hname]
  all_goals simp [fields, Field.Fits, h]

/-! ## Labels on one line -/

section

variable {node : Node} {name : String}

theorem unbroken_className (node : Node) : Unbroken node.className.toList := by
  cases node <;> simp only [className] <;> decide

theorem unbroken_symbol {text : String} (h : (name, .symbol text) ∈ node.fields) :
    Unbroken text.toList := by
  cases node <;> simp [fields] at h
  all_goals
    obtain ⟨-, rfl⟩ := h
    rename_i op _ _
    cases op <;> decide

theorem unbroken_shown {field : Field} (h : (name, field) ∈ node.fields) :
    Unbroken field.shown.toList := by
  cases field with
  | payload value => exact .append_string (by decide) value.unbroken_display
  | bool value => cases value <;> decide
  | symbol text => exact .append_string (by decide) (unbroken_symbol h)
  | node child => exact .nil
  | nodes children => exact .nil

/-- Every node has its label on one line. -/
theorem unbroken_label (node : Node) : Unbroken node.label.toList := by
  rw [label_eq]
  refine (unbroken_className node).append_string fun c hc => ?_
  rw [String.toList_join, List.mem_flatMap] at hc
  obtain ⟨text, htext, hc⟩ := hc
  obtain ⟨⟨name, field⟩, hfield, rfl⟩ := List.mem_map.1 htext
  exact unbroken_shown hfield c hc

theorem unbroken_fieldName {field : Field} (h : (name, field) ∈ node.fields) :
    Unbroken name.toList := by
  have hall : ∀ f ∈ node.fields, Unbroken f.1.toList := by
    cases node <;> simp only [fields, List.forall_mem_cons] <;> decide
  exact hall _ h

end

end Node

end ExprFront
