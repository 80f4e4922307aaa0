import ExprFront.Proofs.Grammar.Depth
import ExprFront.Proofs.Grammar.Tracking

/-!
# Chains of operands

Operands with binary operators between them group by a rule that looks at the chain as a whole: its
last operator among the loosest ones splits it in two, and each part groups by the same rule. The
tiers read the chain from the left and never look ahead, and they come to the same tree: what stands
before the split leads into the loop of its tier, and what stands behind it is an operand there.
-/

namespace ExprFront

open Parse

/-! ## Chains and how they group -/

/-- Tokens and the tree that they are read as. -/
structure Operand where
  tokens : List Token
  tree : Node

/-- An operator and the operand behind it. -/
structure Link where
  sign : Token
  op : BinaryOp
  isOperator : sign.kind.binaryOp? = some op
  operand : Operand

/-- The tokens of a chain: its first operand, and the others behind their operators. -/
def chainTokens (first : Operand) (links : List Link) : List Token :=
  first.tokens ++ links.flatMap fun link => link.sign :: link.operand.tokens

/-- The tree of a chain: that of its only operand, or else the operation of the last operator among
the loosest ones on the trees of the chains before and behind it. -/
inductive Groups : Operand → List Link → Node → Prop where
  | operand (first : Operand) : Groups first [] first.tree
  | split {first : Operand} {before after : List Link} {link : Link} {left right : Node}
      (hbefore : ∀ other ∈ before, link.op.tier ≤ other.op.tier)
      (hafter : ∀ other ∈ after, link.op.tier < other.op.tier)
      (hleft : Groups first before left) (hright : Groups link.operand after right) :
      Groups first (before ++ link :: after) (.binary left.position link.op left right)

theorem chainTokens_split (first : Operand) (before after : List Link) (link : Link) :
    chainTokens first (before ++ link :: after) =
      chainTokens first before ++ link.sign :: chainTokens link.operand after := by
  simp [chainTokens]

/-- Every chain but a single operand has a last operator among its loosest ones. -/
theorem exists_split {links : List Link} (h : links ≠ []) :
    ∃ before link after, links = before ++ link :: after ∧
      (∀ other ∈ before, link.op.tier ≤ other.op.tier) ∧
      ∀ other ∈ after, link.op.tier < other.op.tier := by
  induction links with
  | nil => exact absurd rfl h
  | cons first rest ih =>
    by_cases hrest : rest = []
    · exact ⟨[], first, [], by rw [hrest]; rfl, by simp, by simp⟩
    obtain ⟨before, link, after, rfl, hbefore, hafter⟩ := ih hrest
    -- the first operator takes the place of the one found behind it only if it is looser
    by_cases hle : link.op.tier ≤ first.op.tier
    · refine ⟨first :: before, link, after, rfl, ?_, hafter⟩
      simpa using ⟨hle, hbefore⟩
    · have hlt : first.op.tier < link.op.tier := Nat.lt_of_not_le hle
      refine ⟨[], first, before ++ link :: after, rfl, by simp, fun other hother => ?_⟩
      simp only [List.mem_append, List.mem_cons] at hother
      obtain hother | rfl | hother := hother
      · exact Nat.lt_of_lt_of_le hlt (hbefore other hother)
      · exact hlt
      · exact Nat.lt_trans hlt (hafter other hother)

/-- Every chain groups. -/
theorem exists_groups (first : Operand) (links : List Link) : ∃ tree, Groups first links tree := by
  by_cases h : links = []
  · exact ⟨first.tree, h ▸ .operand first⟩
  obtain ⟨before, link, after, rfl, hbefore, hafter⟩ := exists_split h
  have hlength : (before ++ link :: after).length = before.length + after.length + 1 := by
    simp [Nat.add_assoc]
  obtain ⟨left, hleft⟩ := exists_groups first before
  obtain ⟨right, hright⟩ := exists_groups link.operand after
  exact ⟨_, .split hbefore hafter hleft hright⟩
termination_by links.length

/-! ## Operands -/

/-- Do the tokens of a primary expression end in an assignment or a choice that no parentheses,
braces or call within them enclose? Signs in front of one leave it open. -/
def isOpenEnded : List Token → Bool
  | [] => false
  | t :: ts =>
    match t.kind, ts with
    | .minus, ts | .bang, ts => isOpenEnded ts
    | .ifWord, _ => true
    | .dollar, _ :: q :: _ => q.kind == .equal || q.kind.assignOp?.isSome
    | _, _ => false

/-- Under the limit or a smaller one the tokens are read as the primary expression, all of them, and
they do not end in an open one. -/
def Operand.IsRead (limit : Int) (x : Operand) : Prop :=
  (∃ d ≤ limit, ∃ c, within d id (.ofTokens x.tokens) = .ok x.tree c ∧ c.ahead = []) ∧
    isOpenEnded x.tokens = false

theorem Derives.tier_le_five {ts : List Token} {tier : Nat} {isOpen : Bool} {e : Node}
    (h : Derives ts (.expression tier isOpen e)) : tier ≤ 5 := by
  obtain ⟨n, hnests⟩ := h.exists_nests
  obtain ⟨-, -, htier, -⟩ := hnests.isReadWithin
  exact htier

/-- A derivation is open if the tokens say so. -/
theorem Derives.isOpenEnded_eq {ts : List Token} {phrase : Phrase} (h : Derives ts phrase) :
    ∀ isOpen e, phrase = .expression 5 isOpen e → isOpenEnded ts = isOpen := by
  induction h with
  | negate p ht he ih =>
    rintro _ _ ⟨⟩
    simp only [isOpenEnded, ht, ih _ _ rfl]
  | not p ht he ih =>
    rintro _ _ ⟨⟩
    simp only [isOpenEnded, ht, ih _ _ rfl]
  | looser htier he ih =>
    rintro _ _ ⟨⟩
    exact absurd he.tier_le_five (by decide)
  | @binary ls rs t op isOpen left right p hleft hop hright =>
    intro _ _ hphrase
    have htier : op.tier = 5 := by
      injection hphrase
    exact absurd op.tier_le_four (by omega)
  | number p ht => rintro _ _ ⟨⟩; simp [isOpenEnded, ht]
  | trueWord p ht => rintro _ _ ⟨⟩; simp [isOpenEnded, ht]
  | falseWord p ht => rintro _ _ ⟨⟩; simp [isOpenEnded, ht]
  | var p ht => rintro _ _ ⟨⟩; simp [isOpenEnded, ht]
  | call p ht hl hargs hr => rintro _ _ ⟨⟩; simp [isOpenEnded, ht]
  | userVar p hd hx => rintro _ _ ⟨⟩; simp [isOpenEnded, hd]
  | assign p hd hx hq he => rintro _ _ ⟨⟩; simp [isOpenEnded, hd, hq]
  | mathAssign p hd hx hq he => rintro _ _ ⟨⟩; simp [isOpenEnded, hd, hq]
  | block p hl hbody hr => rintro _ _ ⟨⟩; simp [isOpenEnded, hl]
  | group hl he hr => rintro _ _ ⟨⟩; simp [isOpenEnded, hl]
  | ifElse p hi => rintro _ _ ⟨⟩; simp [isOpenEnded, hi]
  | _ => rintro _ _ ⟨⟩

/-- An operand that is read on its own is read wherever a primary expression is asked for. -/
theorem Operand.IsRead.exists_readsWithin {limit : Int} {x : Operand} (h : x.IsRead limit) :
    ∃ n ≤ limit.toNat, ReadsWithin n x.tokens 5 false x.tree := by
  obtain ⟨⟨d, hd, c, hrun, hc⟩, hclosed⟩ := h
  have hroom : (Cursor.ofTokens x.tokens).room d = d.toNat := by simp [Cursor.room, Cursor.ofTokens]
  simp only [within, hroom, id_eq] at hrun
  have hmeets := (Tracks.primary d.toNat (.ofTokens x.tokens)).meets
  rw [hrun] at hmeets
  obtain ⟨read, hread, isOpen, hderives, -⟩ := hmeets
  obtain rfl : x.tokens = read := by simpa [hc, Cursor.ofTokens] using hread
  obtain rfl := hclosed.symm.trans (hderives.isOpenEnded_eq _ _ rfl)
  obtain ⟨n, hnests⟩ := hderives.exists_nests
  obtain ⟨tree, -, -, hreads, -⟩ := hnests.isReadWithin
  -- the run that is given is the one that the derivation tells of
  obtain ⟨henough, hlack⟩ := hreads none (Stops.at_end 5 false) Follows.at_end d.toNat
    (.ofTokens x.tokens) [] (List.append_nil _).symm rfl
  have hn : n ≤ d.toNat := by
    refine Nat.le_of_not_lt fun hlt => ?_
    obtain ⟨t, c', hdeep, -⟩ := hlack hlt
    cases hdeep.symm.trans hrun
  obtain rfl : tree = x.tree := by
    cases (henough hn).symm.trans hrun
    rfl
  exact ⟨n, Nat.le_trans hn (Int.toNat_le_toNat hd), hreads⟩

/-! ## Reading a chain -/

section

variable {n tier tier' : Nat} {ts : List Token} {isOpen : Bool} {tree : Node}

/-- The tokens are read as an expression of the tier, and they lead into its loop. -/
def ReadsChain (n : Nat) (ts : List Token) (tier : Nat) (isOpen : Bool) (tree : Node) : Prop :=
  ReadsWithin n ts tier isOpen tree ∧ (tier ≤ 4 → LeadsWithin n ts tier isOpen tree)

theorem LeadsWithin.readsChain (h : LeadsWithin n ts tier isOpen tree) :
    ReadsChain n ts tier isOpen tree :=
  ⟨h.readsWithin, fun _ => h⟩

/-- What is read as an expression of a tier is read as one of every looser tier. -/
theorem ReadsChain.loosen (h : ReadsChain n ts tier isOpen tree) (hone : 1 ≤ tier')
    (hle : tier' ≤ tier) (hfive : tier ≤ 5) : ReadsChain n ts tier' isOpen tree := by
  obtain ⟨k, rfl⟩ := Nat.exists_eq_add_of_le hle
  induction k with
  | zero => exact h
  | succ k ih =>
    have hleads : LeadsWithin n ts (tier' + k) isOpen tree :=
      h.1.leadsWithin (Nat.le_add_right_of_le hone) (Nat.le_of_succ_le_succ hfive)
    exact ih hleads.readsChain (Nat.le_add_right tier' k) (Nat.le_of_succ_le hfive)

end

/-- A chain is read as the tree that it groups to, in every tier that none of its operators is looser
than, and with no more room than its operands need. -/
theorem Groups.readsChain {first : Operand} {links : List Link} {tree : Node} {room : Nat}
    (h : Groups first links tree)
    (hfirst : ∃ n ≤ room, ReadsWithin n first.tokens 5 false first.tree)
    (hlinks : ∀ link ∈ links, ∃ n ≤ room,
      ReadsWithin n link.operand.tokens 5 false link.operand.tree) :
    ∃ n ≤ room, ∀ tier, 1 ≤ tier → tier ≤ 5 → (∀ link ∈ links, tier ≤ link.op.tier) →
      ReadsChain n (chainTokens first links) tier false tree := by
  induction h with
  | operand first =>
    obtain ⟨n, hn, hread⟩ := hfirst
    refine ⟨n, hn, fun tier hone hfive _ => ?_⟩
    have hchain : ReadsChain n (chainTokens first []) 5 false first.tree := by
      rw [chainTokens, List.flatMap_nil, List.append_nil]
      exact ⟨hread, fun h => absurd h (by decide)⟩
    exact hchain.loosen hone hfive (Nat.le_refl 5)
  | @split first before after link left right hbefore hafter hleft hright ihleft ihright =>
    simp only [List.mem_append, List.mem_cons, or_imp, forall_and, forall_eq] at hlinks
    obtain ⟨hlinksLeft, hlink, hlinksRight⟩ := hlinks
    obtain ⟨nLeft, hnLeft, hreadLeft⟩ := ihleft hfirst hlinksLeft
    obtain ⟨nRight, hnRight, hreadRight⟩ := ihright hlink hlinksRight
    refine ⟨max nLeft nRight, Nat.max_le.2 ⟨hnLeft, hnRight⟩, fun tier hone hfive htier => ?_⟩
    -- before the operator its own tier is the loosest, and behind it only tighter ones are left
    have hleads := (hreadLeft link.op.tier link.op.one_le_tier
      (Nat.le_succ_of_le link.op.tier_le_four) hbefore).2 link.op.tier_le_four
    have hoperand := (hreadRight (link.op.tier + 1) (Nat.le_add_left 1 _)
      (Nat.succ_le_succ link.op.tier_le_four) hafter).1
    rw [chainTokens_split]
    exact (hleads.binary link.isOperator hoperand).readsChain.loosen hone (htier link (by simp))
      (Nat.le_succ_of_le link.op.tier_le_four)

/-- A chain of operands is read as one expression, up to the end of the tokens or a token that closes
it. Wherever it begins, and with room for each of its operands, all of it is passed over and nothing
else, and what is read is the one tree that the chain groups to. -/
theorem expression_groups (limit maxDepth : Int) (first : Operand) (links : List Link)
    (c : Cursor) (rest : List Token) (hfirst : first.IsRead limit)
    (hlinks : ∀ link ∈ links, link.operand.IsRead limit)
    (hahead : c.ahead = chainTokens first links ++ rest)
    (hrest : ∀ t, rest.head? = some t → t.kind ∈ TokenKind.closers)
    (hlimit : limit + c.depth ≤ maxDepth) :
    ∃ tree, within maxDepth expression c = .ok tree (c.over (chainTokens first links) rest) ∧
      ∀ tree', Groups first links tree' ↔ tree' = tree := by
  have hstops : Stops 1 false rest.head? := fun t op ht hop => by
    rw [(TokenKind.closers_spec (hrest t ht)).1] at hop
    cases hop
  have hfollows : Follows rest.head? := fun t ht => (TokenKind.closers_spec (hrest t ht)).2
  have hroom : limit.toNat ≤ c.room maxDepth := by
    unfold Cursor.room
    omega
  have hread : ∀ tree, Groups first links tree →
      within maxDepth expression c = .ok tree (c.over (chainTokens first links) rest) := by
    intro tree hgroups
    obtain ⟨n, hn, hchain⟩ := hgroups.readsChain hfirst.exists_readsWithin
      fun link hlink => (hlinks link hlink).exists_readsWithin
    have hpasses := (hchain 1 (Nat.le_refl 1) (by decide) fun link _ => link.op.one_le_tier).1
      rest.head? hstops hfollows
    exact (hpasses (c.room maxDepth) c rest hahead rfl).1 (Nat.le_trans hn hroom)
  -- the run is one, so the chain groups in no other way
  obtain ⟨tree, hgroups⟩ := exists_groups first links
  refine ⟨tree, hread tree hgroups, fun tree' => ⟨fun hgroups' => ?_, fun heq => heq ▸ hgroups⟩⟩
  cases (hread tree' hgroups').symm.trans (hread tree hgroups)
  rfl

/-- In `a - b * c - d )` the last minus sign is the one that splits, and the first one splits what is
left of it. -/
theorem expression_groups_differences :
    let name (x : String) : Operand :=
      ⟨[.bare .identifier (.text x)], .var .first (.text x)⟩
    let minus (x : String) : Link := ⟨.bare .minus, .math .sub, rfl, name x⟩
    let star (x : String) : Link := ⟨.bare .star, .math .mul, rfl, name x⟩
    let links := [minus "b", star "c", minus "d"]
    let tokens := chainTokens (name "a") links ++ [.bare .rightParen]
    (name "a").IsRead 1 ∧ (∀ link ∈ links, link.operand.IsRead 1) ∧
      within 1 expression (.ofTokens tokens) =
        .ok (.math .first .sub
          (.math .first .sub (name "a").tree (.math .first .mul (name "b").tree (name "c").tree))
          (name "d").tree)
        ((Cursor.ofTokens tokens).over (chainTokens (name "a") links) [.bare .rightParen]) := by
  intro name minus star links tokens
  have hname : ∀ x, (name x).IsRead 1 := fun x => ⟨⟨1, Int.le_refl 1, _, rfl, rfl⟩, rfl⟩
  have hlinks : ∀ link ∈ links, link.operand.IsRead 1 := by
    simp [links, minus, star, hname]
  obtain ⟨tree, hrun, hgroups⟩ := expression_groups 1 1 (name "a") links (.ofTokens tokens)
    [.bare .rightParen] (hname "a") hlinks rfl (by rintro _ ⟨⟩; decide) (by decide)
  have hproduct : Groups (name "b") ([] ++ [star "c"]) _ :=
    .split (by simp) (by simp) (.operand _) (.operand _)
  have hleft : Groups (name "a") ([] ++ [minus "b", star "c"]) _ :=
    .split (by simp) (by simp [minus, star, BinaryOp.tier]) (.operand _) hproduct
  have hsplit : Groups (name "a") ([minus "b", star "c"] ++ [minus "d"]) _ :=
    .split (by simp [minus, star, BinaryOp.tier]) (by simp) hleft (.operand _)
  obtain rfl := (hgroups _).1 hsplit
  exact ⟨hname "a", hlinks, hrun⟩

end ExprFront
