import Mathlib.Data.List.Perm.Basic
import ExprFront.Proofs.Tree.Labels

/-!
# Lines of outlines

An outline has one line for each node, in document order, one for each list of children that is
empty and two around each that is not. No text in it breaks a line, so these are the lines of the
outline as a text too.
-/

namespace ExprFront

/-! ## Lines of fields -/

/-- The lines of a field that holds nodes, with its name and the depth of its first line. -/
def Field.outline (indent : String) (depth : Nat) (name : String) : Field → List String
  | .node child => child.outlineAt indent depth (name ++ ": ")
  | .nodes children => Node.outlineList indent depth name children
  | _ => []

namespace Node

section

variable (indent : String) (depth : Nat)

/-- The lines of a node are its own, then those of its fields. -/
theorem outlineAt_eq (role : String) (node : Node) :
    node.outlineAt indent depth role =
      Outline.line indent depth (role ++ node.label) ::
        node.fields.flatMap fun f => f.2.outline indent (depth + 1) f.1 := by
  cases node <;> simp [outlineAt, fields, Field.outline]

theorem outlineRest_eq (nodes : List Node) :
    outlineRest indent depth nodes = nodes.flatMap (outlineAt indent depth "") := by
  induction nodes with
  | nil => rfl
  | cons node rest ih => rw [outlineRest, ih, List.flatMap_cons]

theorem outlineList_eq (name : String) (nodes : List Node) :
    outlineList indent depth name nodes =
      if nodes = [] then [Outline.line indent depth (name ++ ": []")]
      else Outline.line indent depth (name ++ ": [") ::
        nodes.flatMap (outlineAt indent (depth + 1) "") ++ [Outline.line indent depth "]"] := by
  cases nodes with
  | nil => rfl
  | cons node rest => simp [outlineList, outlineRest_eq]

end

/-! ## Lines of the text -/

section

variable {indent : String}

/-- A line is indented with the characters of the indent only. -/
theorem mem_of_mem_indentation {depth : Nat} {c : Char}
    (h : c ∈ (String.join (List.replicate depth indent)).toList) : c ∈ indent.toList := by
  rw [String.toList_join, List.mem_flatMap] at h
  obtain ⟨piece, hpiece, hc⟩ := h
  rwa [List.eq_of_mem_replicate hpiece] at hc

theorem unbroken_line (hindent : Unbroken indent.toList) (depth : Nat) {text : String}
    (h : Unbroken text.toList) : Unbroken (Outline.line indent depth text).toList :=
  Unbroken.append_string (fun c hc => hindent c (mem_of_mem_indentation hc)) h

theorem unbroken_outlineList (hindent : Unbroken indent.toList) {depth : Nat} {name : String}
    (hname : Unbroken name.toList) {children : List Node}
    (h : ∀ child ∈ children, ∀ line ∈ child.outlineAt indent (depth + 1) "", Unbroken line.toList) :
    ∀ line ∈ outlineList indent depth name children, Unbroken line.toList := by
  intro line hline
  rw [outlineList_eq] at hline
  split at hline
  · rw [List.mem_singleton.1 hline]
    exact unbroken_line hindent depth (hname.append_string (by decide))
  · rw [List.cons_append, List.mem_cons, List.mem_append, List.mem_singleton] at hline
    rcases hline with rfl | hbelow | rfl
    · exact unbroken_line hindent depth (hname.append_string (by decide))
    · obtain ⟨child, hchild, hline⟩ := List.mem_flatMap.1 hbelow
      exact h child hchild line hline
    · exact unbroken_line hindent depth (by decide)

theorem unbroken_outlineAt (hindent : Unbroken indent.toList) (tree : Node) :
    ∀ (depth : Nat) (role : String), Unbroken role.toList →
      ∀ line ∈ tree.outlineAt indent depth role, Unbroken line.toList := by
  induction tree using children_induction with
  | node tree ih =>
    intro depth role hrole line hline
    rw [outlineAt_eq] at hline
    obtain rfl | hline := List.mem_cons.1 hline
    · exact unbroken_line hindent depth (hrole.append_string (unbroken_label tree))
    obtain ⟨⟨name, field⟩, hfield, hline⟩ := List.mem_flatMap.1 hline
    have hname := unbroken_fieldName hfield
    have hchild := fun child hchild => ih child (mem_children hfield hchild)
    cases field with
    | payload value => cases hline
    | bool value => cases hline
    | symbol text => cases hline
    | node child => exact hchild child (.head _) _ _ (hname.append_string (by decide)) line hline
    | nodes children =>
      have hlines := fun child hmem => hchild child hmem (depth + 2) "" .nil
      exact unbroken_outlineList hindent hname hlines line hline

/-- The lines of the text are the lines of the outline. -/
theorem splitOn_outlineText (hindent : Unbroken indent.toList) (tree : Node) :
    (tree.outlineText indent).toList.splitOn '\n' = (tree.outline indent).map String.toList := by
  rw [outlineText, String.toList_intercalate]
  refine List.splitOn_intercalate '\n' (fun line hline hbreak => ?_) ?_
  · obtain ⟨text, htext, rfl⟩ := List.mem_map.1 hline
    have hunbroken := unbroken_outlineAt hindent tree 0 "" .nil text htext '\n' hbreak
    exact absurd hunbroken (by decide)
  · rw [outline, outlineAt_eq]
    exact List.cons_ne_nil _ _

theorem outline_eq_of_outlineText (hindent : Unbroken indent.toList) {a b : Node}
    (h : a.outlineText indent = b.outlineText indent) : a.outline indent = b.outline indent := by
  have hlines := splitOn_outlineText hindent a
  rw [h, splitOn_outlineText hindent b] at hlines
  exact ((List.map_injective_iff.2 fun _ _ => String.toList_inj.1) hlines).symm

end

end Node

/-! ## What each line is for -/

/-- What a line of an outline stands for: a node with the role it plays, a list that is empty, or the
beginning or the end of one that is not. -/
inductive Entry where
  | node (depth : Nat) (role : String) (node : Node)
  | empty (depth : Nat) (name : String)
  | opening (depth : Nat) (name : String)
  | closing (depth : Nat)

namespace Entry

/-- The line of an entry. -/
def line (indent : String) : Entry → String
  | .node depth role tree => Outline.line indent depth (role ++ tree.label)
  | .empty depth name => Outline.line indent depth (name ++ ": []")
  | .opening depth name => Outline.line indent depth (name ++ ": [")
  | .closing depth => Outline.line indent depth "]"

def node? : Entry → Option Node
  | .node _ _ tree => some tree
  | _ => none

def isEmpty : Entry → Bool
  | .empty _ _ => true
  | _ => false

def isOpening : Entry → Bool
  | .opening _ _ => true
  | _ => false

def isClosing : Entry → Bool
  | .closing _ => true
  | _ => false

end Entry

namespace Node

/-- The lists of children in a tree. -/
def lists (tree : Node) : List (List Node) :=
  tree.preorder.flatMap fun node => node.fields.flatMap (·.2.lists)

/-- The entries are for these nodes, in this order, and for these lists: one for an empty list and
two for one that is not. -/
structure Accounts (entries : List Entry) (nodes : List Node) (lists : List (List Node)) : Prop where
  nodes : entries.filterMap Entry.node? = nodes
  empty : entries.countP Entry.isEmpty = lists.countP List.isEmpty
  opening : entries.countP Entry.isOpening = lists.countP (!·.isEmpty)
  closing : entries.countP Entry.isClosing = lists.countP (!·.isEmpty)

/-- The lines are those of entries for these nodes and lists. -/
def Entered (indent : String) (lines : List String) (nodes : List Node) (lists : List (List Node)) :
    Prop :=
  ∃ entries, lines = entries.map (Entry.line indent) ∧ Accounts entries nodes lists

section

variable {indent : String} {lines lines' : List String} {nodes nodes' : List Node}
  {lists lists' : List (List Node)}

theorem Entered.nil : Entered indent [] [] [] :=
  ⟨[], rfl, rfl, rfl, rfl, rfl⟩

theorem Entered.append (h : Entered indent lines nodes lists)
    (h' : Entered indent lines' nodes' lists') :
    Entered indent (lines ++ lines') (nodes ++ nodes') (lists ++ lists') := by
  obtain ⟨entries, rfl, haccounts⟩ := h
  obtain ⟨entries', rfl, haccounts'⟩ := h'
  refine ⟨entries ++ entries', List.map_append.symm, ?_, ?_, ?_, ?_⟩
  · rw [List.filterMap_append, haccounts.nodes, haccounts'.nodes]
  · rw [List.countP_append, List.countP_append, haccounts.empty, haccounts'.empty]
  · rw [List.countP_append, List.countP_append, haccounts.opening, haccounts'.opening]
  · rw [List.countP_append, List.countP_append, haccounts.closing, haccounts'.closing]

theorem Entered.perm (h : Entered indent lines nodes lists) (hperm : lists.Perm lists') :
    Entered indent lines nodes lists' := by
  obtain ⟨entries, hlines, haccounts⟩ := h
  exact ⟨entries, hlines, haccounts.nodes, haccounts.empty.trans (hperm.countP_eq _),
    haccounts.opening.trans (hperm.countP_eq _), haccounts.closing.trans (hperm.countP_eq _)⟩

theorem Entered.flatMap {α : Type} {items : List α} {lines : α → List String}
    {nodes : α → List Node} {lists : α → List (List Node)}
    (h : ∀ x ∈ items, Entered indent (lines x) (nodes x) (lists x)) :
    Entered indent (items.flatMap lines) (items.flatMap nodes) (items.flatMap lists) := by
  induction items with
  | nil => exact .nil
  | cons x items ih =>
    simp only [List.flatMap_cons]
    exact (h x (.head _)).append (ih fun y hy => h y (.tail _ hy))

theorem entered_outlineList (depth : Nat) (name : String) {children : List Node}
    (h : ∀ child ∈ children,
      Entered indent (child.outlineAt indent (depth + 1) "") child.preorder child.lists) :
    Entered indent (outlineList indent depth name children) (children.flatMap preorder)
      (children :: children.flatMap Node.lists) := by
  rw [outlineList_eq]
  split
  case isTrue hnil =>
    subst hnil
    exact ⟨[.empty depth name], rfl, rfl, rfl, rfl, rfl⟩
  case isFalse hne =>
    obtain ⟨entries, hlines, haccounts⟩ := Entered.flatMap h
    have hempty : children.isEmpty = false := by simpa using hne
    refine ⟨.opening depth name :: (entries ++ [.closing depth]), ?_, ?_, ?_, ?_, ?_⟩
    · rw [hlines, List.map_cons, List.map_append]
      rfl
    · rw [List.filterMap_cons_none rfl, List.filterMap_append, haccounts.nodes]
      exact List.append_nil _
    · simp [Entry.isEmpty, hempty, haccounts.empty]
    · simp [List.countP_cons, Entry.isOpening, hempty, haccounts.opening]
    · simp [List.countP_cons, Entry.isClosing, hempty, haccounts.closing]

theorem preorderAll_eq_flatMap (nodes : List Node) : preorderAll nodes = nodes.flatMap preorder := by
  induction nodes with
  | nil => rfl
  | cons node rest ih => rw [preorderAll, ih, List.flatMap_cons]

/-- The lists in a tree, by the fields of its root. -/
theorem perm_lists (tree : Node) :
    (tree.fields.flatMap fun f => f.2.lists ++ f.2.children.flatMap Node.lists).Perm
      tree.lists := by
  have hlists : tree.lists = tree.fields.flatMap (·.2.lists) ++
      tree.fields.flatMap (·.2.children.flatMap Node.lists) := by
    rw [Node.lists, preorder_eq, List.flatMap_cons, preorderAll_eq_flatMap, children_eq,
      List.flatMap_assoc, List.flatMap_assoc]
    rfl
  rw [hlists]
  exact (List.flatMap_append_perm _ _ _).symm

/-- The lines of a tree are those of its nodes, in document order, and of its lists. -/
theorem entered_outlineAt (indent : String) (depth : Nat) (role : String) (tree : Node) :
    Entered indent (tree.outlineAt indent depth role) tree.preorder tree.lists := by
  induction tree using children_induction generalizing depth role with
  | node tree ih =>
    have hfields : ∀ f ∈ tree.fields,
        Entered indent (f.2.outline indent (depth + 1) f.1) (f.2.children.flatMap preorder)
          (f.2.lists ++ f.2.children.flatMap Node.lists) := by
      rintro ⟨name, field⟩ hfield
      have hchild := fun child hchild => ih child (mem_children hfield hchild)
      cases field with
      | payload value => exact .nil
      | bool value => exact .nil
      | symbol text => exact .nil
      | node child =>
        have hlines := hchild child (.head _) (depth + 1) (name ++ ": ")
        simpa [Field.outline, Field.children, Field.lists] using hlines
      | nodes children =>
        exact entered_outlineList (depth + 1) name fun child hmem => hchild child hmem (depth + 2) ""
    obtain ⟨entries, hlines, haccounts⟩ := (Entered.flatMap hfields).perm (perm_lists tree)
    refine ⟨.node depth role tree :: entries, ?_, ?_, haccounts.empty, haccounts.opening,
      haccounts.closing⟩
    · rw [outlineAt_eq, List.map_cons, ← hlines]
      rfl
    · rw [preorder_eq, preorderAll_eq_flatMap, children_eq, List.flatMap_assoc, ← haccounts.nodes]
      rfl

end

end Node

end ExprFront
