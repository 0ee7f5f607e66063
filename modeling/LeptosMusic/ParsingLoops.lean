import LeptosMusic.CodedInputStream

/-!
# Loops over tags

A message, a group and a set of unknown fields are read by a loop that takes a tag and what follows
it, round after round. Bytes lead such a loop from one value to another when the loop, wherever it
stands in front of them, is the same as behind them with the other value.
-/
namespace LeptosMusic.GPBCodedInputStreamState

/-- A loop with fuel. `ι` is what it keeps for itself, `σ` what it reads into. -/
abbrev TagLoop (ι σ : Type) := Nat → ι → σ → Reading σ

/-- Both ends of a loop: the limit, and an end tag. -/
structure Ends {ι σ : Type} (loop : TagLoop ι σ) : Prop where
  atLimit : ∀ {fuel i s state t}, readTag state = .ok 0 t → loop (fuel + 1) i s state = .ok s t
  atEndTag : ∀ {fuel i s state t number}, GPBWireFormat.FieldNumber number →
    readTag state = .ok (GPBWireFormat.makeTag number .endGroup) t →
      loop (fuel + 1) i s state = .ok s t

/-- The bytes take the loop from `s` to `s'`, at this recursion depth. -/
def Leads {ι σ : Type} (loop : TagLoop ι σ) (depth : Nat) (bytes : NSData) (s s' : σ) : Prop :=
  ∀ i state, Ordered state → state.recursionDepth = depth → ∀ rest, state.ahead = bytes ++ rest →
    ∀ fuel, bytes.length < fuel → ∃ i' fuel' tag, fuel ≤ fuel' + bytes.length ∧
      loop fuel i s state = loop fuel' i' s' ((state.skip bytes.length).retag tag)

variable {ι σ : Type} {loop : TagLoop ι σ} {depth fuel : Nat} {s s' s'' : σ} {bytes : NSData}
  {state : GPBCodedInputStreamState} {number : BitVec 32}

theorem leads_nil (loop : TagLoop ι σ) (depth : Nat) (s : σ) : Leads loop depth [] s s :=
  fun i state _ _ _ _ fuel _ => ⟨i, fuel, state.lastTag, Nat.le_refl _, rfl⟩

theorem inside_of_ahead {front rest : NSData} (same : state.ahead = front ++ rest) :
    front.length ≤ state.ahead.length := by
  rw [same, List.length_append]
  exact Nat.le_add_right _ _

theorem ahead_behind {front rest : NSData} (tag : BitVec 32) (same : state.ahead = front ++ rest) :
    ((state.skip front.length).retag tag).ahead = rest := by
  rw [ahead_retag, ahead_skip, same, List.drop_left]

theorem Leads.append {front back : NSData} (first : Leads loop depth front s s')
    (second : Leads loop depth back s' s'') : Leads loop depth (front ++ back) s s'' := by
  intro i state ordered atDepth rest same fuel enough
  rw [List.append_assoc] at same
  rw [List.length_append] at enough ⊢
  obtain ⟨i₁, fuel₁, tag₁, left₁, merged₁⟩ :=
    first i state ordered atDepth _ same fuel (by omega)
  obtain ⟨i₂, fuel₂, tag₂, left₂, merged₂⟩ :=
    second i₁ _ ((ordered.skip (inside_of_ahead same)).retag tag₁) atDepth rest
      (ahead_behind tag₁ same) fuel₁ (by omega)
  refine ⟨i₂, fuel₂, tag₂, by omega, ?_⟩
  rw [merged₁, merged₂, skip_retag, skip_skip, retag_retag]

/-- A round: a tag and the bytes that belong to it. -/
theorem leads_round {format : GPBWireFormat} (valid : GPBWireFormat.FieldNumber number)
    (round : ∀ fuel i state t, readTag state = .ok (GPBWireFormat.makeTag number format) t →
      Ordered t → t.recursionDepth = depth → ∀ rest, t.ahead = bytes ++ rest →
        bytes.length ≤ fuel → ∃ i' tag,
          loop (fuel + 1) i s state = loop fuel i' s' ((t.skip bytes.length).retag tag)) :
    Leads loop depth (tagBytes number format ++ bytes) s s' := by
  intro i state ordered atDepth rest ahead fuel enough
  have positive : 0 < (tagBytes number format).length := Varints.encode_length_pos _
  rw [List.append_assoc] at ahead
  rw [List.length_append] at enough ⊢
  obtain ⟨fuel, rfl⟩ : ∃ fuel', fuel = fuel' + 1 := ⟨fuel - 1, by omega⟩
  have tagged := readTag_tagBytes ordered valid format ahead
  obtain ⟨i', tag, taken⟩ := round fuel i state _ tagged
    ((ordered.skip (inside_of_ahead ahead)).retag _) atDepth rest (ahead_behind _ ahead) (by omega)
  refine ⟨i', fuel, tag, by omega, ?_⟩
  rw [taken, skip_retag, skip_skip, retag_retag]

/-- Bytes with an end tag behind them end the loop there. -/
theorem Leads.toEndTag (ends : Ends loop) (leads : Leads loop depth bytes s s')
    (valid : GPBWireFormat.FieldNumber number) (ordered : Ordered state)
    (atDepth : state.recursionDepth = depth) {rest : NSData}
    (ahead : state.ahead = bytes ++ (tagBytes number .endGroup ++ rest))
    (enough : bytes.length + (tagBytes number .endGroup).length ≤ fuel) (i : ι) :
    loop fuel i s state =
      .ok s' ((state.skip (bytes.length + (tagBytes number .endGroup).length)).retag
        (GPBWireFormat.makeTag number .endGroup)) := by
  have positive : 0 < (tagBytes number .endGroup).length := Varints.encode_length_pos _
  obtain ⟨i', fuel', tag, left, merged⟩ := leads i state ordered atDepth _ ahead fuel (by omega)
  obtain ⟨fuel', rfl⟩ : ∃ fuel'', fuel' = fuel'' + 1 := ⟨fuel' - 1, by omega⟩
  have ended := readTag_tagBytes ((ordered.skip (inside_of_ahead ahead)).retag tag) valid .endGroup
    (ahead_behind tag ahead)
  rw [skip_retag, skip_skip, retag_retag] at ended
  rw [merged]
  exact ends.atEndTag valid ended

/-- Bytes with nothing behind them end the loop at the limit. -/
theorem Leads.toEnd (ends : Ends loop) (leads : Leads loop depth bytes s s')
    (ordered : Ordered state) (atDepth : state.recursionDepth = depth) (ahead : state.ahead = bytes)
    (enough : bytes.length < fuel) (i : ι) :
    loop fuel i s state = .ok s' ((state.skip bytes.length).retag 0) := by
  have whole : state.ahead = bytes ++ [] := ahead.trans (List.append_nil _).symm
  obtain ⟨i', fuel', tag, left, merged⟩ := leads i state ordered atDepth [] whole fuel enough
  obtain ⟨fuel', rfl⟩ : ∃ fuel'', fuel' = fuel'' + 1 := ⟨fuel' - 1, by omega⟩
  have ended := readTag_end ((ordered.skip (inside_of_ahead whole)).retag tag)
    (ahead_behind tag whole)
  rw [retag_retag] at ended
  rw [merged]
  exact ends.atLimit ended

/-- What the loop raises behind the bytes, it raises in front of them. -/
theorem Leads.raises (leads : Leads loop depth bytes s s') (ordered : Ordered state)
    (atDepth : state.recursionDepth = depth) {rest : NSData} (ahead : state.ahead = bytes ++ rest)
    (enough : bytes.length < fuel) (i : ι) {e : ParseException}
    (behind : ∀ fuel i tag,
      ∃ t, loop (fuel + 1) i s' ((state.skip bytes.length).retag tag) = .error e t) :
    ∃ t, loop fuel i s state = .error e t := by
  obtain ⟨i', fuel', tag, left, merged⟩ := leads i state ordered atDepth rest ahead fuel enough
  obtain ⟨fuel', rfl⟩ : ∃ fuel'', fuel' = fuel'' + 1 := ⟨fuel' - 1, by omega⟩
  rw [merged]
  exact behind fuel' i' tag

/-- The state with the limit so many bytes ahead. -/
def narrowed (state : GPBCodedInputStreamState) (n : Nat) : GPBCodedInputStreamState :=
  { state with currentLimit := state.bufferPos + n }

theorem ahead_narrowed (ordered : Ordered state) {n : Nat} (inside : n ≤ state.ahead.length) :
    (state.narrowed n).ahead = state.ahead.take n := by
  have := ordered.position
  rw [ordered.ahead_length] at inside
  change (state.bytes.take (state.bufferPos + n)).drop state.bufferPos = state.ahead.take n
  rw [ahead, List.take_drop, List.take_take, Nat.min_eq_left (by omega)]

theorem Ordered.narrowed (ordered : Ordered state) {n : Nat} (inside : n ≤ state.ahead.length) :
    Ordered (state.narrowed n) where
  position := Nat.le_add_right _ _
  limit := by
    have := ordered.position
    have := ordered.limit
    rw [ordered.ahead_length] at inside
    change state.bufferPos + n ≤ state.bytes.length
    omega
  size := ordered.size

theorem pushLimit_ahead (ordered : Ordered state) {n : Nat} (inside : n ≤ state.ahead.length) :
    pushLimit n state = .ok state.currentLimit (state.narrowed n) := by
  have := ordered.position
  have := ordered.limit
  have := ordered.size
  rw [ordered.ahead_length] at inside
  have small : (n + state.bufferPos) % 2 ^ 64 = state.bufferPos + n := by
    rw [Nat.add_comm]
    exact Nat.mod_eq_of_lt (by omega)
  rw [pushLimit, small]
  exact if_neg (by omega)

theorem bytesUntilLimit_ahead (ordered : Ordered state) :
    bytesUntilLimit state = .ok state.ahead.length state := by
  have := ordered.position
  have := ordered.limit
  have := ordered.size
  rw [bytesUntilLimit, ordered.ahead_length]
  congr 1
  rw [nsUInteger]
  omega

/-- A length with so many bytes behind it: from there on, the limit is at their end. -/
theorem readLength_ahead {bytes rest : NSData} (small : bytes.length < 2 ^ 31)
    (ordered : Ordered state) (ahead : state.ahead = lengthPrefixed bytes ++ rest) :
    ∃ size n, 0 < n ∧ n + bytes.length = (lengthPrefixed bytes).length ∧
      readRawVarint32 state = .ok size (state.skip n) ∧
      pushLimit (sizeT size) (state.skip n) =
        .ok state.currentLimit ((state.skip n).narrowed bytes.length) ∧
      Ordered ((state.skip n).narrowed bytes.length) ∧
      ((state.skip n).narrowed bytes.length).ahead = bytes := by
  have low : bytes.length % 2 ^ 32 = bytes.length := Nat.mod_eq_of_lt (by omega)
  rw [lengthPrefixed, low, List.append_assoc] at ahead
  have read := reads_readRawVarint32 (Nat.lt_trans small (by decide)) state ordered _ ahead
  have moved := ordered.skip (inside_of_ahead ahead)
  have behind : (state.skip (Varints.encode bytes.length).length).ahead = bytes ++ rest := by
    rw [ahead_skip, ahead, List.drop_left]
  have inside := inside_of_ahead behind
  refine ⟨_, _, Varints.encode_length_pos _, ?_, read, ?_, moved.narrowed inside, ?_⟩
  · rw [lengthPrefixed, low, List.length_append]
  · rw [sizeT_eq (toInt_ofNat_small small)]
    exact pushLimit_ahead moved inside
  · rw [ahead_narrowed moved inside, behind, List.take_left]

/-- The stream further on, before the same limit. -/
def Follows (state t : GPBCodedInputStreamState) : Prop :=
  ∃ n ≤ state.ahead.length, ∃ tag, t = (state.skip n).retag tag

variable {t u : GPBCodedInputStreamState}

theorem Follows.refl (state : GPBCodedInputStreamState) : Follows state state :=
  ⟨0, Nat.zero_le _, state.lastTag, rfl⟩

theorem Follows.trans (first : Follows state t) (second : Follows t u) : Follows state u := by
  obtain ⟨n, inside, tag, rfl⟩ := first
  obtain ⟨k, inside', tag', rfl⟩ := second
  rw [ahead_retag, ahead_skip, List.length_drop] at inside'
  exact ⟨n + k, by omega, tag', by rw [skip_retag, skip_skip, retag_retag]⟩

theorem Follows.ordered (follows : Follows state t) (ordered : Ordered state) : Ordered t := by
  obtain ⟨n, inside, tag, rfl⟩ := follows
  exact (ordered.skip inside).retag tag

theorem Follows.recursionDepth (follows : Follows state t) :
    t.recursionDepth = state.recursionDepth := by
  obtain ⟨n, _, tag, rfl⟩ := follows
  rfl

theorem Follows.currentLimit (follows : Follows state t) : t.currentLimit = state.currentLimit := by
  obtain ⟨n, _, tag, rfl⟩ := follows
  rfl

theorem Follows.shorter (follows : Follows state t) : t.ahead.length ≤ state.ahead.length := by
  obtain ⟨n, _, tag, rfl⟩ := follows
  rw [ahead_retag, ahead_skip, List.length_drop]
  omega

/-- The outcome of a read: further on, with a value for which `P` holds, or an exception for which
`E` does. -/
def Lands {α : Type} (E : ParseException → Prop) (P : α → GPBCodedInputStreamState → Prop)
    (state : GPBCodedInputStreamState) :
    EStateM.Result ParseException GPBCodedInputStreamState α → Prop
  | .ok a t => Follows state t ∧ P a t
  | .error e _ => E e

variable {α β : Type} {E : ParseException → Prop} {P : α → GPBCodedInputStreamState → Prop}
  {Q : β → GPBCodedInputStreamState → Prop} {read : Reading α} {next : α → Reading β}

theorem lands_pure {a : α} (holds : P a state) :
    Lands E P state ((pure a : Reading α) state) := ⟨Follows.refl state, holds⟩

theorem lands_throw {e : ParseException} (known : E e) :
    Lands E P state ((throw e : Reading α) state) := known

theorem Lands.bind (first : Lands E P state (read state))
    (rest : ∀ a t, Follows state t → P a t → Lands E Q t (next a t)) :
    Lands E Q state ((read >>= next) state) := by
  cases outcome : read state with
  | error e t =>
      rw [bind_error outcome]
      rw [outcome] at first
      exact first
  | ok a t =>
      rw [bind_ok outcome]
      rw [outcome] at first
      have later := rest a t first.1 first.2
      cases outcome' : next a t with
      | error e u =>
          rw [outcome'] at later
          exact later
      | ok b u =>
          rw [outcome'] at later
          exact ⟨first.1.trans later.1, later.2⟩

theorem Meets.lands {R : α → Nat → Prop} (meets : Meets read R) (listed : ∀ e, e.Listed → E e)
    (ordered : Ordered state) :
    Lands E (fun a t => ∃ n ≤ state.ahead.length, t = state.skip n ∧ R a n) state (read state) := by
  have here := meets state ordered
  cases outcome : read state with
  | error e t =>
      rw [outcome] at here
      exact listed e here
  | ok a t =>
      rw [outcome] at here
      obtain ⟨n, inside, same, holds⟩ := here
      exact ⟨⟨n, inside, state.lastTag, same⟩, n, inside, same, holds⟩

theorem Lands.mono {Q : α → GPBCodedInputStreamState → Prop}
    {outcome : EStateM.Result ParseException GPBCodedInputStreamState α}
    (lands : Lands E P state outcome) (weaker : ∀ a t, Follows state t → P a t → Q a t) :
    Lands E Q state outcome := by
  cases outcome with
  | ok a t => exact ⟨lands.1, weaker a t lands.1 lands.2⟩
  | error e t => exact lands

/-- What is read one level further down, up to this tag. -/
def nested (tag : BitVec 32) (read : Reading α) : Reading α := do
  enter
  let a ← read
  checkLastTagWas tag
  leave
  return a

theorem Lands.nested {tag : BitVec 32} (listed : ∀ e, e.Listed → E e)
    (inner : Lands E P state.deeper (read state.deeper)) :
    Lands E (fun a _ => ∃ t, P a t) state (nested tag read state) := by
  rw [GPBCodedInputStreamState.nested, bind_ok (enter_eq state)]
  cases outcome : read state.deeper with
  | error e t =>
      rw [bind_error outcome]
      rw [outcome] at inner
      exact inner
  | ok a t =>
      rw [bind_ok outcome]
      rw [outcome] at inner
      obtain ⟨⟨n, inside, tag', rfl⟩, holds⟩ := inner
      by_cases ended : tag' = tag
      · rw [bind_ok (checkLastTagWas_ok ((lastTag_retag tag').trans ended)),
          bind_ok (leave_eq state n tag')]
        exact ⟨⟨n, inside, tag', rfl⟩, _, holds⟩
      · have raised : checkLastTagWas tag ((state.deeper.skip n).retag tag') =
            raiseException .invalidTag (some "Unexpected tag read") _ := if_pos ended
        rw [bind_error raised]
        exact listed _ ⟨_, _, rfl⟩

/-- What is read below the recursion limit. -/
theorem Lands.checked (listed : ∀ e, e.Listed → E e)
    (inner : state.recursionDepth < kDefaultRecursionLimit → Lands E P state (read state)) :
    Lands E P state ((checkRecursionLimit >>= fun _ => read) state) := by
  by_cases room : state.recursionDepth < kDefaultRecursionLimit
  · rw [bind_ok (checkRecursionLimit_ok room)]
    exact inner room
  · have raised : checkRecursionLimit state = raiseException .recursionDepthExceeded none state :=
      if_pos (Nat.not_lt.mp room)
    rw [bind_error raised]
    exact listed _ ⟨_, _, rfl⟩

/-- What is read up to a limit, which is then lifted. -/
theorem Lands.limited {n : Nat} (ordered : Ordered state) (inside : n ≤ state.ahead.length)
    (inner : Lands E P (state.narrowed n) (read (state.narrowed n))) :
    Lands E (fun a _ => ∃ t, P a t) state
      ((read >>= fun a => popLimit state.currentLimit >>= fun _ => pure a) (state.narrowed n)) := by
  cases outcome : read (state.narrowed n) with
  | error e t =>
      rw [bind_error outcome]
      rw [outcome] at inner
      exact inner
  | ok a t =>
      rw [bind_ok outcome]
      rw [outcome] at inner
      obtain ⟨⟨k, inside', tag, rfl⟩, holds⟩ := inner
      rw [ahead_narrowed ordered inside, List.length_take_of_le inside] at inside'
      exact ⟨⟨k, Nat.le_trans inside' inside, tag, rfl⟩, _, holds⟩

theorem Lands.raises {E' : ParseException → Prop}
    {outcome : EStateM.Result ParseException GPBCodedInputStreamState α}
    (lands : Lands E P state outcome) (weaker : ∀ e, E e → E' e) : Lands E' P state outcome := by
  cases outcome with
  | ok a t => exact lands
  | error e t => exact weaker e lands

theorem Lands.also {Q : α → Prop} {outcome : EStateM.Result ParseException GPBCodedInputStreamState α}
    (lands : Lands E P state outcome) (holds : ∀ a t, outcome = .ok a t → Q a) :
    Lands E (fun a t => P a t ∧ Q a) state outcome := by
  cases outcome with
  | ok a t => exact ⟨lands.1, lands.2, holds a t rfl⟩
  | error e t => exact lands

/-- A loop over tags keeps what its rounds keep. Every round takes at least the byte of its tag. -/
theorem lands_rounds {σ : Type} (loop : Nat → σ → Reading σ)
    (round : Nat → BitVec 32 → σ → Reading (Bool × σ)) {depth : Nat} {P : σ → Prop}
    (listed : ∀ e, e.Listed → E e)
    (unfolds : ∀ fuel s, loop (fuel + 1) s = (readTag >>= fun tag =>
      if tag = 0 then pure s
      else round fuel tag s >>= fun result => if result.1 then loop fuel result.2 else pure result.2))
    (rounds : ∀ fuel tag s state, Ordered state → state.recursionDepth = depth →
      state.ahead.length < fuel → GPBWireFormat.isValidTag tag = true →
        GPBWireFormat.FieldNumber (GPBWireFormat.getTagFieldNumber tag) → P s →
          Lands E (fun result _ => P result.2) state (round fuel tag s state))
    {s : σ} (ordered : Ordered state) (atDepth : state.recursionDepth = depth)
    (enough : state.ahead.length < fuel) (holds : P s) :
    Lands E (fun s _ => P s) state (loop fuel s state) := by
  induction fuel generalizing state s with
  | zero => exact absurd enough (Nat.not_lt_zero _)
  | succ fuel ih =>
      rw [unfolds]
      by_cases nothing : state.ahead = []
      · rw [bind_ok (readTag_end ordered nothing), if_pos rfl]
        exact ⟨⟨0, Nat.zero_le _, 0, rfl⟩, holds⟩
      · have tagged := readTag_any ordered nothing
        cases outcome : readTag state with
        | error e t =>
            rw [bind_error outcome]
            rw [outcome] at tagged
            exact listed e tagged
        | ok tag t =>
            rw [outcome] at tagged
            obtain ⟨n, positive, inside, rfl, named, valid⟩ := tagged
            have nonzero : tag ≠ 0 := by
              rintro rfl
              exact absurd valid.1 (by decide)
            have follows : Follows state ((state.skip n).retag tag) := ⟨n, inside, tag, rfl⟩
            have shorter : ((state.skip n).retag tag).ahead.length < fuel := by
              rw [ahead_retag, ahead_skip, List.length_drop]
              omega
            have here := rounds fuel tag s _ (follows.ordered ordered) atDepth shorter named valid holds
            have more (result : Bool × σ) (u : GPBCodedInputStreamState)
                (follows' : Follows ((state.skip n).retag tag) u) (holds' : P result.2) :
                Lands E (fun s _ => P s) u
                  ((if result.1 then loop fuel result.2 else pure result.2 : Reading σ) u) := by
              cases result.1 with
              | true =>
                  exact ih (follows'.ordered (follows.ordered ordered))
                    (follows'.recursionDepth.trans atDepth)
                    (Nat.lt_of_le_of_lt follows'.shorter shorter) holds'
              | false => exact lands_pure holds'
            have whole := here.bind more
            rw [bind_ok outcome, if_neg nonzero]
            cases outcome' : (round fuel tag s >>= fun result =>
                if result.1 then loop fuel result.2 else pure result.2) ((state.skip n).retag tag) with
            | error e u =>
                rw [outcome'] at whole
                exact whole
            | ok final u =>
                rw [outcome'] at whole
                exact ⟨follows.trans whole.1, whole.2⟩

/-- A negative length that is taken for a size leaves the limit behind the position. -/
structure Beyond (state : GPBCodedInputStreamState) : Prop where
  limit : state.currentLimit < state.bufferPos
  position : state.bufferPos ≤ state.bytes.length
  size : state.bytes.length < 2 ^ 62

theorem pushLimit_refused {size : Nat}
    (large : (size + state.bufferPos) % 2 ^ 64 > state.currentLimit) :
    ∃ e t, pushLimit size state = .error e t ∧ e.Listed :=
  ⟨_, _, if_pos large, _, _, rfl⟩

/-- What becomes of any length. -/
theorem pushLimit_any (ordered : Ordered state) (size : BitVec 32) :
    (∃ n ≤ state.ahead.length,
      pushLimit (sizeT size) state = .ok state.currentLimit (state.narrowed n)) ∨
    (∃ t, Beyond { state with currentLimit := t } ∧
      pushLimit (sizeT size) state = .ok state.currentLimit { state with currentLimit := t }) ∨
    ∃ e t, pushLimit (sizeT size) state = .error e t ∧ e.Listed := by
  have position := ordered.position
  have limit := ordered.limit
  have small := ordered.size
  have length := ordered.ahead_length
  by_cases nonneg : 0 ≤ size.toInt
  · have value : sizeT size < 2 ^ 31 := by
      have signed := BitVec.toInt_eq_toNat_cond size
      have same := sizeT_nonneg nonneg
      split_ifs at signed <;> omega
    by_cases inside : sizeT size ≤ state.ahead.length
    · exact .inl ⟨_, inside, pushLimit_ahead ordered inside⟩
    · have sum : (sizeT size + state.bufferPos) % 2 ^ 64 = sizeT size + state.bufferPos :=
        Nat.mod_eq_of_lt (by omega)
      exact .inr (.inr (pushLimit_refused (by omega)))
  · have large : 2 ^ 63 ≤ sizeT size := GPBOutputBufferState.signExtend_negative (by omega)
    have bound : sizeT size < 2 ^ 64 := (size.signExtend 64).isLt
    by_cases wraps : 2 ^ 64 ≤ sizeT size + state.bufferPos
    · have sum : (sizeT size + state.bufferPos) % 2 ^ 64 = sizeT size + state.bufferPos - 2 ^ 64 := by
        rw [Nat.mod_eq_sub_mod wraps, Nat.mod_eq_of_lt (by omega)]
      refine .inr (.inl ⟨sizeT size + state.bufferPos - 2 ^ 64, ⟨?_, ?_, small⟩, ?_⟩)
      · change sizeT size + state.bufferPos - 2 ^ 64 < state.bufferPos
        omega
      · exact Nat.le_trans position limit
      · rw [pushLimit, sum]
        exact if_neg (by omega)
    · have sum : (sizeT size + state.bufferPos) % 2 ^ 64 = sizeT size + state.bufferPos :=
        Nat.mod_eq_of_lt (by omega)
      exact .inr (.inr (pushLimit_refused (by omega)))

/-- Nothing at all can be read beyond the limit. -/
theorem Beyond.readRaw (beyond : Beyond state) {size : Nat} (bound : size < 2 ^ 63) :
    ∃ e t, GPBCodedInputStreamState.readRaw size state = .error e t ∧ e.Listed := by
  have limit := beyond.limit
  have position := beyond.position
  have small := beyond.size
  have sum : (state.bufferPos + size) % 2 ^ 64 = state.bufferPos + size :=
    Nat.mod_eq_of_lt (by omega)
  have refused : ∃ e t, checkSize size state = .error e t ∧ e.Listed := by
    rw [checkSize, sum]
    by_cases outside : state.bufferPos + size > state.bufferSize
    · rw [if_pos outside]
      exact ⟨_, _, rfl, _, _, rfl⟩
    · rw [if_neg outside, if_pos (by omega)]
      exact ⟨_, _, rfl, _, _, rfl⟩
  obtain ⟨e, t, raised, listed⟩ := refused
  exact ⟨e, t, bind_error raised, listed⟩

theorem Beyond.readRawVarint64 (beyond : Beyond state) :
    ∃ e t, GPBCodedInputStreamState.readRawVarint64 state = .error e t ∧ e.Listed := by
  obtain ⟨e, t, raised, listed⟩ := beyond.readRaw (by decide : 1 < 2 ^ 63)
  refine ⟨e, t, ?_, listed⟩
  have byte : readRawByte state = .error e t := bind_error raised
  rw [GPBCodedInputStreamState.readRawVarint64, readRawVarint64From, if_pos (by decide),
    bind_error byte]

theorem Beyond.readRawVarint32 (beyond : Beyond state) :
    ∃ e t, GPBCodedInputStreamState.readRawVarint32 state = .error e t ∧ e.Listed := by
  obtain ⟨e, t, raised, listed⟩ := beyond.readRawVarint64
  exact ⟨e, t, bind_error raised, listed⟩

/-- Beyond the limit, no tag is read but the one at the end of the data. -/
theorem Beyond.readTag (beyond : Beyond state) :
    GPBCodedInputStreamState.readTag state = .ok 0 (state.retag 0) ∨
      ∃ e t, GPBCodedInputStreamState.readTag state = .error e t ∧ e.Listed := by
  have limit := beyond.limit
  by_cases atEnd : isAtEnd state = true
  · rw [GPBCodedInputStreamState.readTag, bind_ok (get_eq state), if_pos atEnd]
    exact .inl rfl
  · obtain ⟨e, t, raised, listed⟩ := beyond.readRawVarint32
    rw [GPBCodedInputStreamState.readTag, bind_ok (get_eq state), if_neg atEnd, bind_error raised]
    exact .inr ⟨e, t, rfl, listed⟩

theorem Beyond.readNoTag (beyond : Beyond state) {type : PlainType}
    (packable : type.packable = true) :
    ∃ e t, GPBCodedInputStreamState.readNoTag type state = .error e t ∧ e.Listed := by
  obtain ⟨e, t, varint, listed⟩ := beyond.readRawVarint32
  obtain ⟨e', t', varint', listed'⟩ := beyond.readRawVarint64
  obtain ⟨e₁, t₁, word, listed₁⟩ := beyond.readRaw (by decide : 4 < 2 ^ 63)
  obtain ⟨e₂, t₂, words, listed₂⟩ := beyond.readRaw (by decide : 8 < 2 ^ 63)
  have word : readRawLittleEndian32 state = .error e₁ t₁ := bind_error word
  have words : readRawLittleEndian64 state = .error e₂ t₂ := bind_error words
  cases type with
  | bytes => cases packable
  | string => cases packable
  | bool => exact ⟨e, t, bind_error varint, listed⟩
  | int32 => exact ⟨e, t, bind_error varint, listed⟩
  | sint32 => exact ⟨e, t, bind_error varint, listed⟩
  | uint32 => exact ⟨e, t, bind_error varint, listed⟩
  | enum => exact ⟨e, t, bind_error varint, listed⟩
  | int64 => exact ⟨e', t', bind_error varint', listed'⟩
  | sint64 => exact ⟨e', t', bind_error varint', listed'⟩
  | uint64 => exact ⟨e', t', bind_error varint', listed'⟩
  | fixed32 => exact ⟨e₁, t₁, bind_error word, listed₁⟩
  | sfixed32 => exact ⟨e₁, t₁, bind_error word, listed₁⟩
  | float => exact ⟨e₁, t₁, bind_error word, listed₁⟩
  | fixed64 => exact ⟨e₂, t₂, bind_error words, listed₂⟩
  | sfixed64 => exact ⟨e₂, t₂, bind_error words, listed₂⟩
  | double => exact ⟨e₂, t₂, bind_error words, listed₂⟩

/-- The bytes left before a limit that is behind wrap around to many. -/
theorem Beyond.bytesUntilLimit (beyond : Beyond state) :
    ∃ n > 0, GPBCodedInputStreamState.bytesUntilLimit state = .ok n state := by
  have limit := beyond.limit
  have position := beyond.position
  have small := beyond.size
  refine ⟨_, ?_, rfl⟩
  rw [nsUInteger]
  omega

end LeptosMusic.GPBCodedInputStreamState
