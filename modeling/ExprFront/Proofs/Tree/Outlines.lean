import ExprFront.Proofs.Tree.Lines

/-!
# Trees back from outlines

An outline loses nothing but positions, even where nothing is indented. A node's line tells its class
and what it holds besides nodes, and with that the fields whose lines follow. In a list the line that
closes it cannot be taken for another child, since no class begins with a bracket. So lines tell
which tree they are of, whatever follows them.
-/

namespace ExprFront

/-- Is the payload equal to itself only: neither the undefined number nor the negative zero? -/
def Payload.isExact : Payload → Bool
  | .number x => x != .nan && x != .zero true
  | _ => true

/-- No number but zero is equal to another one. -/
theorem Binary64.equals_iff_eq {x y : Binary64} (hx : x ≠ .nan) (hzero : x ≠ .zero true)
    (hzero' : y ≠ .zero true) : x.equals y = true ↔ x = y := by
  cases x <;> cases y <;> simp [equals] at hx ⊢
  case finite.finite negative rank negative' rank' =>
    constructor
    · rintro ⟨rfl, rfl | hrank⟩
      · exact ⟨rfl, rfl⟩
      · -- both are zero, and neither is the negative one
        have hrank : rank = ⟨0, by decide⟩ := Fin.ext hrank
        subst hrank
        cases negative <;> cases negative' <;> first | exact ⟨rfl, rfl⟩ | contradiction
    · rintro ⟨rfl, rfl⟩
      exact ⟨rfl, .inl rfl⟩

theorem Payload.equals_iff_eq {p q : Payload} (hp : p.isExact = true) (hq : q.isExact = true) :
    p.equals q = true ↔ p = q := by
  cases p <;> cases q <;> simp only [equals, Bool.false_eq_true, reduceCtorEq, beq_iff_eq,
    text.injEq, number.injEq]
  case number.number x y =>
    simp only [isExact, Bool.and_eq_true, bne_iff_ne] at hp hq
    exact Binary64.equals_iff_eq hp.1 hp.2 hq.2

namespace Node

/-! ## Lines that can be told apart -/

section

variable {indent : String} {depth : Nat} {role name : String} {s t : List String}

theorem line_inj {text text' : String}
    (h : Outline.line indent depth text = Outline.line indent depth text') : text = text' :=
  (String.append_right_inj _).1 h

/-- Indented by blanks, a line begins with what it would begin with unindented. -/
theorem dropWhile_line (hindent : ∀ c ∈ indent.toList, c = ' ') (depth : Nat) (text : String) :
    (Outline.line indent depth text).toList.dropWhile (· = ' ') =
      text.toList.dropWhile (· = ' ') := by
  have hblanks : ∀ c ∈ (String.join (List.replicate depth indent)).toList,
      decide (c = ' ') = true := fun c hc =>
    decide_eq_true (hindent c (mem_of_mem_indentation hc))
  rw [Outline.line, String.toList_append, List.dropWhile_append_of_pos hblanks]

/-- The line of a node in a list is not the line that closes a list. -/
theorem outlineAt_append_ne (hindent : ∀ c ∈ indent.toList, c = ' ') (depth' : Nat) (node : Node) :
    node.outlineAt indent depth "" ++ s ≠ Outline.line indent depth' "]" :: t := by
  intro h
  rw [outlineAt_eq, List.cons_append] at h
  have hdrop := congrArg (fun line => line.toList.dropWhile (· = ' ')) (List.cons.inj h).1
  obtain ⟨c, rest, hclass, hblank, hbracket⟩ := exists_className_cons node
  have hlabel : ("" ++ node.label).toList =
      c :: (rest ++ (String.join (node.fields.map fun f => f.2.shown)).toList) := by
    rw [String.empty_append, label_eq, String.toList_append, hclass, List.cons_append]
  simp only [dropWhile_line hindent, hlabel] at hdrop
  rw [List.dropWhile_cons_of_neg (by simpa using hblank)] at hdrop
  exact hbracket (List.cons.inj hdrop).1

/-! ## Trees from their lines -/

/-- The lines of the tree are those of no other tree, whatever follows them. -/
def Legible (indent : String) (tree : Node) : Prop :=
  ∀ (tree' : Node) (depth : Nat) (role : String) (s t : List String),
    tree.outlineAt indent depth role ++ s = tree'.outlineAt indent depth role ++ t →
      tree.unplaced = tree'.unplaced ∧ s = t

theorem unplacedAll_eq_of_outlineList (hindent : ∀ c ∈ indent.toList, c = ' ')
    {nodes nodes' : List Node} (hnodes : ∀ node ∈ nodes, Legible indent node)
    (h : outlineList indent depth name nodes ++ s = outlineList indent depth name nodes' ++ t) :
    unplacedAll nodes = unplacedAll nodes' ∧ s = t := by
  have hbrackets : name ++ ": []" ≠ name ++ ": [" := fun heq =>
    absurd ((String.append_right_inj name).1 heq) (by decide)
  rw [outlineList_eq, outlineList_eq] at h
  split at h <;> split at h
  case isTrue.isTrue hnil hnil' =>
    rw [hnil, hnil']
    exact ⟨rfl, (List.cons.inj h).2⟩
  case isTrue.isFalse => exact absurd (line_inj (List.cons.inj h).1) hbrackets
  case isFalse.isTrue => exact absurd (line_inj (List.cons.inj h).1).symm hbrackets
  case isFalse.isFalse =>
    rw [List.cons_append, List.cons_append, List.append_assoc, List.append_assoc] at h
    obtain ⟨hrows, hst⟩ := forall₂_of_codewords
      (fun node hnode tree' s t => hnodes node hnode tree' (depth + 1) "" s t)
      (fun node _ _ => outlineAt_append_ne hindent depth node) (List.cons.inj h).2
    exact ⟨unplacedAll_eq_iff.2 hrows, hst⟩

theorem unplaced_eq_of_outline (hindent : ∀ c ∈ indent.toList, c = ' ') {f g : Field}
    (hfits : f.Fits g) (hchildren : ∀ child ∈ f.children, Legible indent child)
    (h : f.outline indent depth name ++ s = g.outline indent depth name ++ t) :
    f.unplaced = g.unplaced ∧ s = t := by
  cases f <;> cases g <;> simp only [Field.Fits] at hfits
  case payload.payload => exact ⟨congrArg Field.payload hfits, h⟩
  case bool.bool => exact ⟨congrArg Field.bool hfits, h⟩
  case symbol.symbol => exact ⟨congrArg Field.symbol hfits, h⟩
  case node.node child child' =>
    obtain ⟨halike, hst⟩ := hchildren child (.head _) child' _ _ _ _ h
    exact ⟨congrArg Field.node halike, hst⟩
  case nodes.nodes nodes nodes' =>
    obtain ⟨halike, hst⟩ := unplacedAll_eq_of_outlineList hindent hchildren h
    exact ⟨congrArg Field.nodes halike, hst⟩

/-- Rows of fields that fit are alike if their lines are the same. -/
theorem forall₂_unplaced_of_outline (hindent : ∀ c ∈ indent.toList, c = ' ')
    {fs gs : List (String × Field)}
    (hfits : List.Forall₂ (fun f g => f.1 = g.1 ∧ f.2.Fits g.2) fs gs)
    (hchildren : ∀ f ∈ fs, ∀ child ∈ f.2.children, Legible indent child)
    (h : fs.flatMap (fun f => f.2.outline indent depth f.1) ++ s =
      gs.flatMap (fun f => f.2.outline indent depth f.1) ++ t) :
    List.Forall₂ (fun f g => f.1 = g.1 ∧ f.2.unplaced = g.2.unplaced) fs gs ∧ s = t := by
  induction hfits with
  | nil => exact ⟨.nil, h⟩
  | @cons f g fs gs hfg _ ih =>
    obtain ⟨hname, hfit⟩ := hfg
    rw [List.flatMap_cons, List.flatMap_cons, List.append_assoc, List.append_assoc, ← hname] at h
    obtain ⟨halike, hrest⟩ := unplaced_eq_of_outline hindent hfit (hchildren f (.head _)) h
    obtain ⟨hrows, hst⟩ := ih (fun g hg => hchildren g (.tail _ hg)) hrest
    exact ⟨.cons ⟨hname, halike⟩ hrows, hst⟩

/-- Lines tell the tree, whatever follows them. -/
theorem legible (hindent : ∀ c ∈ indent.toList, c = ' ') (tree : Node) : Legible indent tree := by
  induction tree using children_induction with
  | node tree ih =>
    intro tree' depth role s t h
    rw [outlineAt_eq, outlineAt_eq, List.cons_append, List.cons_append] at h
    obtain ⟨hline, hbelow⟩ := List.cons.inj h
    obtain ⟨hclass, hfits⟩ := fits_of_label ((String.append_right_inj role).1 (line_inj hline))
    obtain ⟨hrows, hst⟩ := forall₂_unplaced_of_outline hindent hfits
      (fun f hf child hchild => ih child (mem_children hf hchild)) hbelow
    exact ⟨unplaced_eq_iff_fields.2 ⟨hclass, hrows⟩, hst⟩

end

/-! ## Equal trees -/

/-- Where no payload is equal to another one, trees are equal when they are alike. -/
theorem equals_iff_unplaced {a b : Node} (ha : ∀ p ∈ a.payloads, p.isExact = true)
    (hb : ∀ p ∈ b.payloads, p.isExact = true) :
    a.equals b = true ↔ a.unplaced = b.unplaced := by
  constructor
  · exact unplaced_eq_of_equals fun p hp q hq => (Payload.equals_iff_eq (ha p hp) (hb q hq)).1
  · intro h
    rw [← equals_unplaced, h, equals_unplaced]
    exact equals_self_of_payloads fun p hp => (Payload.equals_iff_eq (hb p hp) (hb p hp)).2 rfl

mutual

/-- Positions do not show in outlines. -/
theorem outlineAt_unplaced (indent : String) (depth : Nat) (role : String) (tree : Node) :
    tree.unplaced.outlineAt indent depth role = tree.outlineAt indent depth role := by
  cases tree <;>
    simp only [unplaced, outlineAt, label, className, outlineAt_unplaced, outlineList_unplaced]

theorem outlineList_unplaced (indent : String) (depth : Nat) (name : String) (nodes : List Node) :
    outlineList indent depth name (unplacedAll nodes) = outlineList indent depth name nodes := by
  cases nodes with
  | nil => rfl
  | cons node rest => simp only [unplacedAll, outlineList, outlineAt_unplaced, outlineRest_unplaced]

theorem outlineRest_unplaced (indent : String) (depth : Nat) (nodes : List Node) :
    outlineRest indent depth (unplacedAll nodes) = outlineRest indent depth nodes := by
  cases nodes with
  | nil => rfl
  | cons node rest => simp only [unplacedAll, outlineRest, outlineAt_unplaced, outlineRest_unplaced]

end

theorem outlineText_unplaced (indent : String) (tree : Node) :
    tree.unplaced.outlineText indent = tree.outlineText indent := by
  rw [outlineText, outline, outlineAt_unplaced]
  rfl

/-- An outline loses nothing but positions, whatever number of blanks it is indented by. Trees with
neither undefined numbers nor negative zeros have the same outline exactly if they are equal. And the
lines of an outline are one for each node, in document order, one for each list of children that is
empty, and two for each list that is not. -/
theorem outlineText_faithful (indent : String) (hindent : ∀ c ∈ indent.toList, c = ' ') :
    (∀ a b : Node, (∀ p ∈ a.payloads, p.isExact = true) → (∀ p ∈ b.payloads, p.isExact = true) →
      (a.outlineText indent = b.outlineText indent ↔ a.equals b = true)) ∧
    ∀ tree : Node, ∃ entries : List Entry,
      (tree.outlineText indent).toList.splitOn '\n' =
        entries.map (fun entry => (entry.line indent).toList) ∧
      entries.filterMap Entry.node? = tree.preorder ∧
      entries.countP Entry.isEmpty = tree.lists.countP List.isEmpty ∧
      entries.countP Entry.isOpening = tree.lists.countP (!·.isEmpty) ∧
      entries.countP Entry.isClosing = tree.lists.countP (!·.isEmpty) := by
  have hunbroken : Unbroken indent.toList := by
    intro c hc
    rw [hindent c hc]
    decide
  refine ⟨fun a b ha hb => ?_, fun tree => ?_⟩
  · rw [equals_iff_unplaced ha hb]
    refine ⟨fun h => ?_, fun h => by rw [← outlineText_unplaced, h, outlineText_unplaced]⟩
    have hlines := congrArg (· ++ []) (outline_eq_of_outlineText hunbroken h)
    exact (legible hindent a b 0 "" [] [] hlines).1
  · obtain ⟨entries, hlines, haccounts⟩ := entered_outlineAt indent 0 "" tree
    refine ⟨entries, ?_, haccounts.nodes, haccounts.empty, haccounts.opening, haccounts.closing⟩
    rw [splitOn_outlineText hunbroken, outline, hlines, List.map_map]
    rfl

/-- A call in the list of a block, and a call behind the empty list of a block, with nothing
indented. -/
theorem outlineText_faithful_block :
    let a := Node.block ⟨1, 1⟩ [.call ⟨1, 2⟩ (.text "f") []] (.var ⟨1, 7⟩ (.text "]"))
    let b := Node.block ⟨3, 1⟩ [] (.call ⟨3, 2⟩ (.text "f") [.var ⟨3, 4⟩ (.text "]")])
    (∀ c ∈ "".toList, c = ' ') ∧ (∀ p ∈ a.payloads, p.isExact = true) ∧
      (∀ p ∈ b.payloads, p.isExact = true) ∧ a.outlineText "" ≠ b.outlineText "" := by
  intro a b
  have hindent : ∀ c ∈ "".toList, c = ' ' := by simp
  have ha : ∀ p ∈ a.payloads, p.isExact = true := by
    simp [a, payloads, preorder, preorderAll, fields, Field.payload?, Payload.isExact]
  have hb : ∀ p ∈ b.payloads, p.isExact = true := by
    simp [b, payloads, preorder, preorderAll, fields, Field.payload?, Payload.isExact]
  refine ⟨hindent, ha, hb, fun h => ?_⟩
  have hequals := ((outlineText_faithful "" hindent).1 a b ha hb).1 h
  cases hequals

end Node

end ExprFront
