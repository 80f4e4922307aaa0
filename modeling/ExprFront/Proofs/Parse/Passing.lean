import ExprFront.Proofs.Parse.Locality

/-!
# Passing over tokens with limited room

How a step moves over tokens when the room for nesting is limited: with enough room it passes over
them and goes on as another step, and with less it finds the nesting too deep on the way. How much is
enough is known exactly. Runs are put together from such moves, one behind the other.
-/

namespace ExprFront.Parse

variable {α β : Type}

/-- The outcome is that the nesting is too deep, found no further on than where these tokens are
left. -/
def TooDeep (rest : List Token) (r : EStateM.Result ParseError Cursor α) : Prop :=
  ∃ t c, r = .error (.nestingTooDeep t) c ∧ rest.length ≤ c.ahead.length

/-- With room for `n` levels the step passes over the tokens and goes on as another one, wherever
this token, or the end, comes next. With less room the nesting is too deep among them. -/
def Passes (n : Nat) (p q : Nat → Parse α) (read : List Token) (next : Option Token) : Prop :=
  ∀ room c rest, c.ahead = read ++ rest → rest.head? = next →
    (n ≤ room → p room c = q room (c.over read rest)) ∧ (room < n → TooDeep rest (p room c))

section

variable {n n' : Nat} {p q r : Nat → Parse α} {f : Nat → α → Parse β} {read read' : List Token}
  {next : Option Token} {a : α}

theorem TooDeep.mono {rest rest' : List Token} {r : EStateM.Result ParseError Cursor α}
    (h : TooDeep rest r) (hlength : rest'.length ≤ rest.length) : TooDeep rest' r := by
  obtain ⟨t, c, hr, hle⟩ := h
  exact ⟨t, c, hr, Nat.le_trans hlength hle⟩

theorem TooDeep.bind {rest : List Token} {p : Parse α} {f : α → Parse β} {c : Cursor}
    (h : TooDeep rest (p c)) : TooDeep rest ((p >>= f) c) := by
  obtain ⟨t, c', hp, hle⟩ := h
  exact ⟨t, c', bind_error hp, hle⟩

/-- One move behind another takes the room of the larger. -/
theorem Passes.trans (hp : Passes n p q read (read'.head?.or next)) (hq : Passes n' q r read' next) :
    Passes (max n n') p r (read ++ read') next := by
  intro room c rest hc hnext
  rw [List.append_assoc] at hc
  obtain ⟨henough, hlack⟩ := hp room c (read' ++ rest) hc (by rw [List.head?_append, hnext])
  obtain ⟨henough', hlack'⟩ := hq room (c.over read (read' ++ rest)) rest rfl hnext
  refine ⟨fun hroom => ?_, fun hroom => ?_⟩
  · rw [henough (by omega), henough' (by omega), Cursor.over_over]
  -- the room is too small for the first move, or else for the second
  · by_cases h : room < n
    · exact (hlack h).mono (by simp)
    · rw [henough (Nat.le_of_not_lt h)]
      exact hlack' (by omega)

/-- What comes behind a step comes behind what is left of it. -/
theorem Passes.andThen (h : Passes n p q read next) :
    Passes n (fun room => p room >>= f room) (fun room => q room >>= f room) read next := by
  intro room c rest hc hnext
  obtain ⟨henough, hlack⟩ := h room c rest hc hnext
  refine ⟨fun hroom => ?_, fun hroom => (hlack hroom).bind⟩
  show (p room >>= f room) c = (q room >>= f room) (c.over read rest)
  rw [bind_apply, bind_apply, henough hroom]

theorem Passes.bind (h : Passes n p (fun _ => Pure.pure a) read next) :
    Passes n (fun room => p room >>= f room) (fun room => f room a) read next :=
  h.andThen

/-- A step that reads no tokens, or does not care about room, needs none. -/
theorem Accepts.passes_nil (h : Accepts p [] next a) : Passes 0 p (fun _ => Pure.pure a) [] next :=
  fun room c rest hc hnext => ⟨fun hroom => h room c rest hroom hc hnext, fun hroom => by omega⟩

theorem Accepts.passes {p : Parse α} (h : Accepts (fun _ => p) read next a) :
    Passes 0 (fun _ => p) (fun _ => Pure.pure a) read next :=
  fun _ c rest hc hnext =>
    ⟨fun _ => h read.length c rest (Nat.le_refl _) hc hnext, fun hroom => by omega⟩

theorem Passes.accepts (h : Passes n p (fun _ => Pure.pure a) read next) (hn : n ≤ read.length) :
    Accepts p read next a :=
  fun room c rest hroom hc hnext => (h room c rest hc hnext).1 (Nat.le_trans hn hroom)

/-- Where there is a level of room for each token, what is left of a step may be any other. -/
theorem Passes.accepts_append {us : List Token} (h : Passes n p q read (us.head?.or next))
    (hn : n ≤ read.length) (hq : Accepts q us next a) : Accepts p (read ++ us) next a := by
  intro room c rest hroom hc hnext
  rw [List.length_append] at hroom
  rw [List.append_assoc] at hc
  have hrun := (h room c (us ++ rest) hc (by rw [List.head?_append, hnext])).1 (by omega)
  rw [hrun, hq room _ rest (by omega) rfl hnext, Cursor.over_over]

/-- A token that needs no room comes before a move. -/
theorem Passes.behind (hp : Passes 0 p q read (read'.head?.or next)) (hq : Passes n q r read' next) :
    Passes n p r (read ++ read') next := by
  simpa using hp.trans hq

/-- A token that needs no room comes behind a move. -/
theorem Passes.before (hp : Passes n p q read (read'.head?.or next)) (hq : Passes 0 q r read' next) :
    Passes n p r (read ++ read') next := by
  simpa using hp.trans hq

theorem nested_ok {p : Parse α} {c c' : Cursor} (h : p { c with depth := c.depth + 1 } = .ok a c') :
    nested p c = .ok a { c' with depth := c'.depth - 1 } := by
  unfold nested
  rw [h]

theorem nested_error {p : Parse α} {c c' : Cursor} {e : ParseError}
    (h : p { c with depth := c.depth + 1 } = .error e c') :
    nested p c = .error e { c' with depth := c'.depth - 1 } := by
  unfold nested
  rw [h]

theorem TooDeep.nested {rest : List Token} {p : Parse α} {c : Cursor}
    (h : TooDeep rest (p { c with depth := c.depth + 1 })) : TooDeep rest (nested p c) := by
  obtain ⟨t, c', hp, hle⟩ := h
  exact ⟨t, _, nested_error hp, hle⟩

theorem Passes.nested (h : Passes n p (fun _ => Pure.pure a) read next) :
    Passes n (fun room => nested (p room)) (fun _ => Pure.pure a) read next := by
  intro room c rest hc hnext
  obtain ⟨henough, hlack⟩ := h room { c with depth := c.depth + 1 } rest hc hnext
  exact ⟨fun hroom => nested_ok (henough hroom), fun hroom => (hlack hroom).nested⟩

/-- A primary expression takes one level of room for itself. -/
theorem Passes.primary {t : Token} {a : Node}
    (h : Passes n (fun room => primaryAfter (primary room) t) (fun _ => Pure.pure a) read next) :
    Passes (n + 1) primary (fun _ => Pure.pure a) (t :: read) next := by
  rintro (_ | room) c rest hc hnext
  · exact ⟨fun hroom => by omega, fun _ => ⟨t, _, primary_zero hc, by simp⟩⟩
  · obtain ⟨henough, hlack⟩ := h.nested room (c.over [t] (read ++ rest)) rest rfl hnext
    rw [primary_succ hc]
    refine ⟨fun hroom => ?_, fun hroom => hlack (Nat.lt_of_succ_lt_succ hroom)⟩
    have hrun := henough (Nat.le_of_succ_le_succ hroom)
    rwa [Cursor.over_over] at hrun

end

end ExprFront.Parse
