import ExprFront.Proofs.Grammar.Depth

/-!
# Derived phrases are read

Every derived phrase is read to a tree that it stands for, wherever the token behind it stops it. It
nests no deeper than it has tokens, and a parse has a level of room for each token ahead: what is
left is to forget how much of the room is taken.
-/

namespace ExprFront

open Parse

/-- The step of a tier reads the tokens as the tree, where the token behind stops it. -/
def ReadsAs (ts : List Token) (tier : Nat) (isOpen : Bool) (tree : Node) : Prop :=
  ∀ next, Stops tier isOpen next → Follows next →
    Accepts (fun room => tiered (primary room) tier) ts next tree

/-- The tokens lead into the loop of the tier, with the tree as what has been read so far. An
operator of the tier may come next. -/
def LeadsTo (ts : List Token) (tier : Nat) (isOpen : Bool) (tree : Node) : Prop :=
  ∀ us next result, Stops (tier + 1) isOpen (us.head?.or next) → Follows (us.head?.or next) →
    Accepts (fun room => chainFrom tier (tiered (primary room) (tier + 1)) tree) us next result →
    Accepts (fun room => tiered (primary room) tier) (ts ++ us) next result

/-- The tokens are read as statements wherever none can follow. -/
def ReadsAsStatements (ts : List Token) (exprs : List Node) (last : Node) : Prop :=
  ∀ next, Stops 1 true next → Follows next → (∀ t, next = some t → t.kind ≠ .semicolon) →
    Accepts (fun room => statements (primary room)) ts next (exprs, last)

/-- The tokens are read as arguments up to and with the closing parenthesis. -/
def ReadsAsArguments (ts : List Token) (args : List Node) : Prop :=
  ∀ r next, r.kind = .rightParen →
    Accepts (fun room => arguments (primary room)) (ts ++ [r]) next args

/-- The tokens are read as the phrase, or as one that differs in the positions of nodes alone. -/
def Phrase.IsRead (tokens : List Token) : Phrase → Prop
  | .expression tier isOpen tree => ∃ tree', tree'.unplaced = tree.unplaced ∧
      tier ≤ 5 ∧ ReadsAs tokens tier isOpen tree' ∧ (tier ≤ 4 → LeadsTo tokens tier isOpen tree')
  | .statements exprs last => ∃ exprs' last',
      Node.unplacedAll exprs' = Node.unplacedAll exprs ∧ last'.unplaced = last.unplaced ∧
      ReadsAsStatements tokens exprs' last'
  | .arguments args => ∃ args', Node.unplacedAll args' = Node.unplacedAll args ∧
      ReadsAsArguments tokens args'

/-! ## Enough room -/

section

variable {n tier : Nat} {ts : List Token} {isOpen : Bool} {tree last : Node} {exprs args : List Node}

theorem ReadsWithin.readsAs (h : ReadsWithin n ts tier isOpen tree) (hn : n ≤ ts.length) :
    ReadsAs ts tier isOpen tree :=
  fun next hstops hfollows => (h next hstops hfollows).accepts hn

theorem LeadsWithin.leadsTo (h : LeadsWithin n ts tier isOpen tree) (hn : n ≤ ts.length) :
    LeadsTo ts tier isOpen tree :=
  fun _ _ _ hstops hfollows hloop => (h _ hstops hfollows).accepts_append hn hloop

theorem ReadsStatementsWithin.readsAs (h : ReadsStatementsWithin n ts exprs last)
    (hn : n ≤ ts.length) : ReadsAsStatements ts exprs last :=
  fun next hstops hfollows hsemicolon => (h next hstops hfollows hsemicolon).accepts hn

theorem ReadsArgumentsWithin.readsAs (h : ReadsArgumentsWithin n ts args) (hn : n ≤ ts.length) :
    ReadsAsArguments ts args :=
  fun r next hr => (h r next hr).accepts (by
    rw [List.length_append]
    exact Nat.le_add_right_of_le hn)

end

/-- Every derived phrase is read. -/
theorem Derives.isRead {tokens : List Token} {phrase : Phrase} (h : Derives tokens phrase) :
    phrase.IsRead tokens := by
  obtain ⟨n, hnests⟩ := h.exists_nests
  have hn := hnests.le_length
  have hread := hnests.isReadWithin
  cases phrase with
  | expression tier isOpen tree =>
    obtain ⟨tree', htree, htier, hreads, hleads⟩ := hread
    exact ⟨tree', htree, htier, hreads.readsAs hn, fun h => (hleads h).leadsTo hn⟩
  | statements exprs last =>
    obtain ⟨exprs', last', hexprs, hlast, hreads⟩ := hread
    exact ⟨exprs', last', hexprs, hlast, hreads.readsAs hn⟩
  | arguments args =>
    obtain ⟨args', hargs, hreads⟩ := hread
    exact ⟨args', hargs, hreads.readsAs hn⟩

end ExprFront
