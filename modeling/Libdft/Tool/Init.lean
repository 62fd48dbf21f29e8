import Libdft.Ins.Desc

/-!
# Initialisation: `thread_ctx_init` and `libdft_init`

`src/libdft/src/libdft_api.c:362–393` and `452–496`. `libdft_init` claims the tool register
that holds the context pointers and registers the thread hooks, allocates the tag map,
registers the syscall hooks, resets `ins_desc`, then registers the trace hook and the
exception handler, in that order. Only the first two steps can fail; each failure ends the
call with `1` at once. What the registered hooks do is modelled in `Libdft.Thread`,
`Libdft.Ins` and `Libdft.Tool.Exception`.
-/

namespace Libdft

/-- A callback `libdft_init` hands to Pin. -/
inductive PinCallback
  | threadStart
  | threadFini
  | syscallEntry
  | syscallExit
  | traceInstrument
  | internalExceptionHandler
  deriving DecidableEq, Repr

/-- What initialisation writes. -/
structure ToolState (Op H : Type) where
  /-- `thread_ctx_ptr`, the claimed tool register; `none` is `REG_INVALID()`. -/
  threadCtxPtr : Option Nat
  /-- The callbacks registered with Pin, in registration order. -/
  callbacks : List PinCallback
  insDesc : InsDescTable Op H

variable {Op H : Type}

/-- `thread_ctx_init` (lines 370–393); `claim` is what `PIN_ClaimToolRegister` returns. The
register is stored before the test, so a failed claim leaves `REG_INVALID()` in it. -/
def threadCtxInit (claim : Option Nat) (s : ToolState Op H) : Nat × ToolState Op H :=
  let s := { s with threadCtxPtr := claim }
  match claim with
  | none => (1, s)
  | some _ => (0, { s with callbacks := s.callbacks ++ [.threadStart, .threadFini] })

/-- `libdft_init` (lines 458–496); `tagmapAlloc` is what `tagmap_alloc` returns. -/
def libdftInit (claim : Option Nat) (tagmapAlloc : Nat) (s : ToolState Op H) :
    Nat × ToolState Op H :=
  let (r, s) := threadCtxInit claim s
  if r ≠ 0 then (1, s)
  else if tagmapAlloc ≠ 0 then (1, s)
  else
    let s : ToolState Op H :=
      { s with callbacks := s.callbacks ++ [.syscallEntry, .syscallExit] }
    let s : ToolState Op H := { s with insDesc := insDescReset }
    let s : ToolState Op H := { s with callbacks := s.callbacks ++ [.traceInstrument] }
    (0, { s with callbacks := s.callbacks ++ [.internalExceptionHandler] })

/-- The spec's fixed order of the six registrations. -/
def initCallbacks : List PinCallback :=
  [.threadStart, .threadFini, .syscallEntry, .syscallExit, .traceInstrument,
    .internalExceptionHandler]

/-! ### The three outcomes -/

section Outcomes

variable (s : ToolState Op H) (tagmapAlloc : Nat)

/-- A failed register claim registers nothing and leaves `ins_desc` alone. -/
theorem libdftInit_of_claim_none :
    libdftInit none tagmapAlloc s = (1, { s with threadCtxPtr := none }) := rfl

/-- A failed tag map leaves the thread hooks registered, and nothing after them. -/
theorem libdftInit_of_tagmapAlloc_ne (r : Nat) (h : tagmapAlloc ≠ 0) :
    libdftInit (some r) tagmapAlloc s =
      (1, { s with threadCtxPtr := some r
                   callbacks := s.callbacks ++ [.threadStart, .threadFini] }) := by
  simp [libdftInit, threadCtxInit, h]

/-- A successful initialisation makes the six registrations in the spec's order and resets
`ins_desc`. -/
theorem libdftInit_of_ok (r : Nat) :
    libdftInit (some r) 0 s =
      (0, { threadCtxPtr := some r, callbacks := s.callbacks ++ initCallbacks,
            insDesc := insDescReset }) := by
  simp [libdftInit, threadCtxInit, initCallbacks]

/-- The three outcomes, by the two fallible steps. -/
theorem libdftInit_cases (claim : Option Nat) :
    (claim = none ∧ libdftInit claim tagmapAlloc s = (1, { s with threadCtxPtr := none })) ∨
    (∃ r, claim = some r ∧ tagmapAlloc ≠ 0 ∧ libdftInit claim tagmapAlloc s =
      (1, { s with threadCtxPtr := some r
                   callbacks := s.callbacks ++ [.threadStart, .threadFini] })) ∨
    (∃ r, claim = some r ∧ tagmapAlloc = 0 ∧ libdftInit claim tagmapAlloc s =
      (0, { threadCtxPtr := some r, callbacks := s.callbacks ++ initCallbacks,
            insDesc := insDescReset })) := by
  cases claim with
  | none => exact .inl ⟨rfl, rfl⟩
  | some r =>
    by_cases h : tagmapAlloc = 0
    · subst h; exact .inr (.inr ⟨r, rfl, rfl, libdftInit_of_ok s r⟩)
    · exact .inr (.inl ⟨r, rfl, h, libdftInit_of_tagmapAlloc_ne s tagmapAlloc r h⟩)

end Outcomes

/-- What `libdft_init` promises, from a tool with nothing registered yet. -/
structure InitContract (Op H : Type) : Prop where
  /-- It returns `0` exactly when the register claim and the tag map both succeed. -/
  ret : ∀ claim tagmapAlloc (s : ToolState Op H),
    (libdftInit claim tagmapAlloc s).1 = 0 ↔ claim.isSome ∧ tagmapAlloc = 0
  /-- On success the six callbacks are registered in the spec's order, after nothing else,
  and `ins_desc` is reset. -/
  ok : ∀ claim tagmapAlloc (s : ToolState Op H), s.callbacks = [] →
    (libdftInit claim tagmapAlloc s).1 = 0 →
    (libdftInit claim tagmapAlloc s).2.callbacks = initCallbacks ∧
    (libdftInit claim tagmapAlloc s).2.insDesc = insDescReset
  /-- On failure a failed claim registers nothing, a failed tag map leaves exactly the two
  thread hooks registered, and `ins_desc` is left as it was. -/
  fail : ∀ claim tagmapAlloc (s : ToolState Op H), s.callbacks = [] →
    (libdftInit claim tagmapAlloc s).1 = 1 →
    (libdftInit claim tagmapAlloc s).2.callbacks =
      (if claim.isSome then [.threadStart, .threadFini] else []) ∧
    (libdftInit claim tagmapAlloc s).2.insDesc = s.insDesc

/-- `libdft_init` registers everything or fails early, for every outcome of its two
fallible steps. -/
theorem libdft_init_contract (Op H : Type) : InitContract Op H where
  ret claim tagmapAlloc s := by
    rcases libdftInit_cases s tagmapAlloc claim with
      ⟨rfl, h⟩ | ⟨r, rfl, ht, h⟩ | ⟨r, rfl, rfl, h⟩ <;> simp [h, *]
  ok claim tagmapAlloc s hs h0 := by
    rcases libdftInit_cases s tagmapAlloc claim with
      ⟨-, h⟩ | ⟨r, -, -, h⟩ | ⟨r, -, -, h⟩ <;> rw [h] at h0 ⊢
    · cases h0
    · cases h0
    · exact ⟨by simp [hs], rfl⟩
  fail claim tagmapAlloc s hs h1 := by
    rcases libdftInit_cases s tagmapAlloc claim with
      ⟨rfl, h⟩ | ⟨r, rfl, -, h⟩ | ⟨r, -, -, h⟩ <;> rw [h] at h1 ⊢
    · simp [hs]
    · simp [hs]
    · cases h1

end Libdft
