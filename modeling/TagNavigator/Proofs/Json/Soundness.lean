import TagNavigator.Proofs.Json.Reading

/-!
# Values that are read are sound

Every value that is read from a text is sound (`sound_of_parse?`): its strings hold no halves of a
surrogate pair one after the other, its integers have no more digits than are read, its objects have
one value for each name, and it is nested no deeper than what is read may be.  So it can be printed
and read again.
-/

namespace TagNavigator.Json

/-! ### Tokens that are read -/

/-- What a token says of the value that it is part of. -/
inductive Token.Sound : Token → Prop
  | braceOpen : Token.Sound .braceOpen
  | braceClose : Token.Sound .braceClose
  | bracketOpen : Token.Sound .bracketOpen
  | bracketClose : Token.Sound .bracketClose
  | comma : Token.Sound .comma
  | colon : Token.Sound .colon
  | string {s : JsonString} (h : Joined s) : Token.Sound (.string s)
  | scalar {j : Json} (h : ∀ room, Json.Sound room j) : Token.Sound (.scalar j)

variable {t : Text}

theorem digitValue?_lt {c : Char} {n : Nat} (h : Text.digitValue? c = some n) :
  n < 10
  := by
  obtain ⟨z, hz, rfl⟩ := Option.map_eq_some_iff.mp h
  have hrange := List.find?_some hz
  rw [Bool.and_eq_true, decide_eq_true_iff, decide_eq_true_iff] at hrange
  omega

theorem getD_digitValue?_lt (c : Char) :
  (Text.digitValue? c).getD 0 < 10
  := by
  cases h : Text.digitValue? c with
  | none => decide
  | some n => exact digitValue?_lt h

theorem foldl_digits_lt (t : Text) (n : Nat) :
  t.foldl (fun n c => 10 * n + (Text.digitValue? c).getD 0) n < (n + 1) * Nat.pow 10 t.length
  := by
  induction t generalizing n with
  | nil => exact Nat.lt_of_lt_of_eq (Nat.lt_succ_self n) (Nat.mul_one _).symm
  | cons c t ih =>
      have hdigit := getD_digitValue?_lt c
      calc t.foldl _ (10 * n + (Text.digitValue? c).getD 0)
          < (10 * n + (Text.digitValue? c).getD 0 + 1) * Nat.pow 10 t.length := ih _
        _ ≤ (n + 1) * 10 * Nat.pow 10 t.length := Nat.mul_le_mul_right _ (by omega)
        _ = (n + 1) * Nat.pow 10 (t.length + 1) := by
            rw [Nat.mul_assoc, Nat.mul_comm 10]
            rfl

theorem length_ofNat_valueOfDigits (ht : t ≠ []) :
  (Text.ofNat (Text.valueOfDigits t)).length ≤ t.length
  := by
  have hlt := foldl_digits_lt t 0
  rw [Nat.zero_add, Nat.one_mul] at hlt
  exact (Nat.length_toDigits_le_iff (by decide) (List.length_pos_iff.mpr ht)).mpr hlt

theorem sound_of_readDigits {n : Nat} {negative : Bool} (ht : t ≠ [])
    (h : Text.readDigits t = .ok n) (room : Nat) :
  Sound room (.int (if negative then -(n : Int) else n))
  := by
  rw [Text.readDigits] at h
  split at h
  · contradiction
  · rename_i hlength
    obtain rfl := Except.ok.inj h
    apply Sound.int
    have hle := Nat.le_trans (length_ofNat_valueOfDigits ht) (Nat.not_lt.mp hlength)
    cases negative with
    | false => exact hle
    | true =>
        rw [if_pos rfl, IsShort, Int.natAbs_neg]
        exact hle

theorem sound_of_parts {whole : Text} {m l l' k : Nat} {negative : Bool} {x : Binary64} {j : Json}
    (h : (if whole.isEmpty then none
      else if m = 0 then
        match Text.readDigits whole with
        | .error _ => none
        | .ok n => some (Json.int (if negative then -(n : Int) else n), l)
      else some (.float x, l')) = some (j, k)) (room : Nat) :
  Sound room j
  := by
  split at h
  · contradiction
  rename_i hne
  split at h
  · split at h
    · contradiction
    · rename_i n hread
      obtain ⟨rfl, -⟩ := Prod.mk.inj (Option.some.inj h)
      exact sound_of_readDigits (by simpa using hne) hread room
  · obtain ⟨rfl, -⟩ := Prod.mk.inj (Option.some.inj h)
    exact .float x

/-- What is read is an integer that does not have too many digits, or a floating-point number. -/
theorem sound_of_scanNumber? {j : Json} {k : Nat} (h : scanNumber? t = some (j, k)) (room : Nat) :
  Sound room j
  := sound_of_parts h room

theorem sound_of_mem_literals {l : Text × Json} (hl : l ∈ literals) (room : Nat) :
  Sound room l.2
  := by
  simp only [literals, List.mem_cons, List.not_mem_nil, or_false] at hl
  rcases hl with rfl | rfl | rfl | rfl | rfl | rfl
  · exact .null
  · exact .bool true
  · exact .bool false
  · exact .float _
  · exact .float _
  · exact .float _

theorem sound_of_tokenAt? {c : Char} {token : Token} {k : Nat} (h : tokenAt? c t = some (token, k)) :
  token.Sound
  := by
  rw [tokenAt?.eq_def] at h
  split at h
  · obtain ⟨rfl, -⟩ := Prod.mk.inj (Option.some.inj h)
    exact .braceOpen
  · obtain ⟨rfl, -⟩ := Prod.mk.inj (Option.some.inj h)
    exact .braceClose
  · obtain ⟨rfl, -⟩ := Prod.mk.inj (Option.some.inj h)
    exact .bracketOpen
  · obtain ⟨rfl, -⟩ := Prod.mk.inj (Option.some.inj h)
    exact .bracketClose
  · obtain ⟨rfl, -⟩ := Prod.mk.inj (Option.some.inj h)
    exact .comma
  · obtain ⟨rfl, -⟩ := Prod.mk.inj (Option.some.inj h)
    exact .colon
  · obtain ⟨r, hr, hpair⟩ := Option.map_eq_some_iff.mp h
    obtain ⟨rfl, -⟩ := Prod.mk.inj hpair
    exact .string (joined_of_scanString? hr)
  · split at h
    · rename_i l hl
      obtain ⟨rfl, -⟩ := Prod.mk.inj (Option.some.inj h)
      exact .scalar (sound_of_mem_literals (List.mem_of_find?_eq_some hl))
    · obtain ⟨r, hr, hpair⟩ := Option.map_eq_some_iff.mp h
      obtain ⟨rfl, -⟩ := Prod.mk.inj hpair
      exact .scalar (sound_of_scanNumber? hr)

theorem sound_of_tokenizeFrom {skip : Nat} {ts : List Token} (h : tokenizeFrom skip t = some ts) :
  ∀ token ∈ ts, token.Sound
  := by
  induction t generalizing skip ts with
  | nil =>
      obtain rfl : [] = ts := by
        cases skip with
        | zero => exact Option.some.inj h
        | succ skip => exact Option.some.inj h
      exact List.forall_mem_nil _
  | cons c t ih =>
      cases skip with
      | succ skip => exact ih h
      | zero =>
          rw [tokenizeFrom] at h
          split at h
          · exact ih h
          split at h
          · contradiction
          · rename_i token n htoken
            obtain ⟨ts, hts, rfl⟩ := Option.map_eq_some_iff.mp h
            exact List.forall_mem_cons.mpr ⟨sound_of_tokenAt? htoken, ih hts⟩

/-! ### Values that are read -/

/-- The fields of an object that is sound. -/
structure FieldsSound (room : Nat) (fields : List (JsonString × Json)) : Prop where
  names : (fields.map Prod.fst).Nodup
  joined : ∀ f ∈ fields, Joined f.1
  values : ∀ f ∈ fields, Json.Sound room f.2

theorem fieldsSound_nil {room : Nat} :
  FieldsSound room []
  := ⟨List.nodup_nil, List.forall_mem_nil _, List.forall_mem_nil _⟩

theorem sound_object_iff {room : Nat} {fields : List (JsonString × Json)} :
  Json.Sound (room + 1) (.object fields) ↔ FieldsSound room fields
  := by
  constructor
  · intro h
    cases h with
    | object hnames hjoined hvalues => exact ⟨hnames, hjoined, hvalues⟩
  · rintro ⟨hnames, hjoined, hvalues⟩
    exact .object hnames hjoined hvalues

theorem FieldsSound.setField {room : Nat} {fields : List (JsonString × Json)} {name : JsonString}
    {j : Json} (h : FieldsSound room fields) (hname : Joined name) (hj : Json.Sound room j) :
  FieldsSound room (setField name j fields)
  := by
  refine ⟨nodup_setField h.names, ?_, ?_⟩
  · intro f hf
    rcases mem_setField hf with rfl | hf
    · exact hname
    · exact h.joined f hf
  · intro f hf
    rcases mem_setField hf with rfl | hf
    · exact hj
    · exact h.values f hf

/-- What has been read of a container holds sound values. -/
def Container.Sound (room : Nat) : Container → Prop
  | .array items => ∀ j ∈ items, Json.Sound room j
  | .object fields name => FieldsSound room fields ∧ Joined name

/-- Each of the open containers leaves room for those around it. -/
def ContainersSound : List Container → Prop
  | [] => True
  | c :: rest => c.Sound (nestingLimit - (rest.length + 1)) ∧ ContainersSound rest

namespace Reading

/-- No more containers are open than may be, and all that has been read is sound. -/
structure Sound (r : Reading) : Prop where
  length : r.containers.length ≤ nestingLimit
  containers : ContainersSound r.containers
  result : Json.Sound nestingLimit r.result

variable {r r' : Reading} {containers : List Container} {j : Json} {expected : Expected}

theorem Sound.with_expected (h : r.Sound) :
  Sound { r with expected := expected }
  := ⟨h.length, h.containers, h.result⟩

theorem sound_complete (hlength : containers.length ≤ nestingLimit)
    (hcontainers : ContainersSound containers)
    (hj : Json.Sound (nestingLimit - containers.length) j) :
  (complete containers j).Sound
  := by
  cases containers with
  | nil => exact ⟨hlength, trivial, hj⟩
  | cons c containers =>
      obtain ⟨hc, hrest⟩ := hcontainers
      cases c with
      | array items => exact ⟨hlength, ⟨List.forall_mem_cons.mpr ⟨hj, hc⟩, hrest⟩, .null⟩
      | object fields name => exact ⟨hlength, ⟨⟨hc.1.setField hc.2 hj, hc.2⟩, hrest⟩, .null⟩

theorem sound_opening {c : Container} (h : r.Sound)
    (hc : c.Sound (nestingLimit - (r.containers.length + 1)))
    (hopening : r.opening c expected = some r') :
  r'.Sound
  := by
  rw [opening] at hopening
  split at hopening
  · rename_i hlt
    obtain rfl := Option.some.inj hopening
    exact ⟨hlt, ⟨hc, h.containers⟩, .null⟩
  · contradiction

/-- A container that is closed is a sound value, which leaves room for one container more. -/
theorem sound_closing {c : Container} {result : Json}
    (h : Sound ⟨c :: containers, expected, result⟩)
    (hj : c.Sound (nestingLimit - (containers.length + 1))
      → Json.Sound (nestingLimit - (containers.length + 1) + 1) j) :
  (complete containers j).Sound
  := by
  obtain ⟨hc, hrest⟩ := h.containers
  have hlength : containers.length + 1 ≤ nestingLimit := h.length
  have hroom : nestingLimit - (containers.length + 1) + 1 = nestingLimit - containers.length := by
    omega
  apply sound_complete (Nat.le_of_succ_le hlength) hrest
  rw [← hroom]
  exact hj hc

/-- One more token keeps what has been read sound. -/
theorem Sound.step {token : Token} (h : r.Sound) (htoken : token.Sound)
    (hstep : r.step token = some r') :
  r'.Sound
  := by
  cases htoken with
  | braceOpen =>
      rw [Reading.step] at hstep
      split at hstep
      · refine sound_opening h ?_ hstep
        exact ⟨fieldsSound_nil, joined_nil⟩
      · contradiction
  | bracketOpen =>
      rw [Reading.step] at hstep
      split at hstep
      · refine sound_opening h ?_ hstep
        exact List.forall_mem_nil _
      · contradiction
  | braceClose =>
      obtain ⟨containers, expected, result⟩ := r
      rw [Reading.step] at hstep
      split at hstep
      · rename_i fields name rest hcontainers
        obtain rfl : containers = .object fields name :: rest := hcontainers
        split at hstep
        · obtain rfl := Option.some.inj hstep
          exact sound_closing h fun hc => sound_object_iff.mpr hc.1
        · contradiction
      · contradiction
  | bracketClose =>
      obtain ⟨containers, expected, result⟩ := r
      rw [Reading.step] at hstep
      split at hstep
      · rename_i items rest hcontainers
        obtain rfl : containers = .array items :: rest := hcontainers
        split at hstep
        · obtain rfl := Option.some.inj hstep
          exact sound_closing h fun hc => .array fun k hk => hc k (List.mem_reverse.mp hk)
        · contradiction
      · contradiction
  | comma =>
      rw [Reading.step] at hstep
      split at hstep
      · split at hstep
        · obtain rfl := Option.some.inj hstep
          exact h.with_expected
        · obtain rfl := Option.some.inj hstep
          exact h.with_expected
        · contradiction
      · contradiction
  | colon =>
      rw [Reading.step] at hstep
      split at hstep
      · obtain rfl := Option.some.inj hstep
        exact h.with_expected
      · contradiction
  | string hs =>
      obtain ⟨containers, expected, result⟩ := r
      rw [Reading.step] at hstep
      split at hstep
      · obtain rfl := Option.some.inj hstep
        exact sound_complete h.length h.containers (.string hs)
      split at hstep
      · split at hstep
        · rename_i fields name rest hcontainers
          obtain rfl : containers = .object fields name :: rest := hcontainers
          obtain rfl := Option.some.inj hstep
          exact ⟨h.length, ⟨⟨h.containers.1.1, hs⟩, h.containers.2⟩, .null⟩
        · contradiction
      · contradiction
  | scalar hj =>
      rw [Reading.step] at hstep
      split at hstep
      · obtain rfl := Option.some.inj hstep
        exact sound_complete h.length h.containers (hj _)
      · contradiction

theorem Sound.run {ts : List Token} (h : r.Sound) (hts : ∀ token ∈ ts, token.Sound)
    (hrun : r.run ts = some r') :
  r'.Sound
  := by
  induction ts generalizing r with
  | nil =>
      obtain rfl := Option.some.inj hrun
      exact h
  | cons token ts ih =>
      obtain ⟨htoken, hts⟩ := List.forall_mem_cons.mp hts
      rw [Reading.run] at hrun
      split at hrun
      · contradiction
      · rename_i hstep
        exact ih (h.step htoken hstep) hts hrun

end Reading

/-- Every value that is read from a text is sound. -/
theorem sound_of_parse? {j : Json} (h : parse? t = some j) :
  Sound nestingLimit j
  := by
  obtain ⟨ts, hts, hvalue⟩ := Option.bind_eq_some_iff.mp h
  rw [ofTokens?] at hvalue
  split at hvalue
  · rename_i hrun
    obtain rfl := Option.some.inj hvalue
    have hstart : Reading.start.Sound := ⟨Nat.zero_le _, trivial, .null⟩
    exact (hstart.run (sound_of_tokenizeFrom hts) hrun).result
  · contradiction

end TagNavigator.Json
