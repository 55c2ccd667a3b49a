import TagNavigator.Json.Reader
import TagNavigator.Proofs.Json.Fields
import TagNavigator.Proofs.Json.Tokens

/-!
# Reading values from tokens

Reading the tokens of a sound value completes the value (`completes_tokensOf`), with each
floating-point number replaced by the one that is read back for it.  So a value that is printed and
read is the same value, but for its floating-point numbers (`parse?_printIndented`).
-/

namespace TagNavigator.Json

/-! ### Floating-point numbers in values -/

mutual

/-- The value with each floating-point number replaced by the one that is read back for it. -/
def readBack : Json → Json
  | .float x => .float (reread x)
  | .array items => .array (readBackItems items)
  | .object fields => .object (readBackFields fields)
  | j => j

/-- The items, each read back. -/
def readBackItems : List Json → List Json
  | [] => []
  | j :: rest => readBack j :: readBackItems rest

/-- The fields with their values read back. -/
def readBackFields : List (JsonString × Json) → List (JsonString × Json)
  | [] => []
  | (name, j) :: rest => (name, readBack j) :: readBackFields rest

end

theorem readBackItems_eq_map (items : List Json) :
  readBackItems items = items.map readBack
  := by
  induction items with
  | nil => rfl
  | cons j items ih => rw [readBackItems, ih, List.map_cons]

theorem readBackFields_eq_map (fields : List (JsonString × Json)) :
  readBackFields fields = fields.map fun f => (f.1, readBack f.2)
  := by
  induction fields with
  | nil => rfl
  | cons f fields ih =>
      obtain ⟨name, j⟩ := f
      rw [readBackFields, ih, List.map_cons]

mutual

/-- Whether a value is or holds a floating-point number. -/
def hasFloat : Json → Bool
  | .float _ => true
  | .array items => someItemHasFloat items
  | .object fields => someFieldHasFloat fields
  | _ => false

/-- Whether one of the items has a floating-point number. -/
def someItemHasFloat : List Json → Bool
  | [] => false
  | j :: rest => hasFloat j || someItemHasFloat rest

/-- Whether one of the fields has a floating-point number. -/
def someFieldHasFloat : List (JsonString × Json) → Bool
  | [] => false
  | (_, j) :: rest => hasFloat j || someFieldHasFloat rest

end

mutual

/-- A value without floating-point numbers is read back as it is. -/
theorem readBack_of_not_hasFloat (j : Json) (h : hasFloat j = false) :
  readBack j = j
  := by
  cases j with
  | null => rfl
  | bool b => rfl
  | int n => rfl
  | float x => contradiction
  | string s => rfl
  | array items => rw [readBack, readBackItems_of_not_hasFloat items h]
  | object fields => rw [readBack, readBackFields_of_not_hasFloat fields h]

theorem readBackItems_of_not_hasFloat (items : List Json) (h : someItemHasFloat items = false) :
  readBackItems items = items
  := by
  cases items with
  | nil => rfl
  | cons j rest =>
      rw [someItemHasFloat, Bool.or_eq_false_iff] at h
      rw [readBackItems, readBack_of_not_hasFloat j h.1, readBackItems_of_not_hasFloat rest h.2]

theorem readBackFields_of_not_hasFloat (fields : List (JsonString × Json))
    (h : someFieldHasFloat fields = false) :
  readBackFields fields = fields
  := by
  cases fields with
  | nil => rfl
  | cons f rest =>
      obtain ⟨name, j⟩ := f
      rw [someFieldHasFloat, Bool.or_eq_false_iff] at h
      rw [readBackFields, readBack_of_not_hasFloat j h.1, readBackFields_of_not_hasFloat rest h.2]

end

/-! ### Reading the tokens of a value -/

namespace Reading

/-- The tokens complete the value wherever it may come next and `room` more containers may be
opened. -/
def Completes (room : Nat) (ts : List Token) (j : Json) : Prop :=
  ∀ r : Reading, r.takesValue = true → r.containers.length + room ≤ nestingLimit →
    ∀ us, r.run (ts ++ us) = (complete r.containers j).run us

theorem run_cons {r r' : Reading} {t : Token} {us : List Token} (h : r.step t = some r') :
  r.run (t :: us) = r'.run us
  := by
  rw [run, h]

theorem completes_singleton {room : Nat} {t : Token} {j : Json}
    (h : ∀ r : Reading, r.takesValue = true → r.step t = some (complete r.containers j)) :
  Completes room [t] j
  := fun r hr _ _ => run_cons (h r hr)

theorem completes_scalar {room : Nat} (j : Json) :
  Completes room [.scalar j] j
  := completes_singleton fun _ hr => if_pos hr

theorem completes_string {room : Nat} (s : JsonString) :
  Completes room [.string s] (.string s)
  := completes_singleton fun _ hr => if_pos hr

/-- The items of an array, with commas between them. -/
theorem run_items {room : Nat} {items done : List Json} {containers : List Container}
    {expected : Expected} {us : List Token} (hne : items ≠ [])
    (h : ∀ j ∈ items, Completes room (tokensOf j) (readBack j))
    (hexpected : expected = .value ∨ expected = .valueOrEnd)
    (hroom : containers.length + 1 + room ≤ nestingLimit) :
  run ⟨.array done :: containers, expected, .null⟩
      ([Token.comma].intercalate (items.map tokensOf) ++ us)
    = run ⟨.array ((items.map readBack).reverse ++ done) :: containers, .separator, .null⟩ us
  := by
  induction items generalizing done expected with
  | nil => exact absurd rfl hne
  | cons j items ih =>
      have htakes : takesValue ⟨.array done :: containers, expected, .null⟩ = true := by
        rcases hexpected with rfl | rfl
        · rfl
        · rfl
      have hfirst := h j List.mem_cons_self _ htakes hroom
      cases items with
      | nil =>
          rw [List.map_singleton, List.intercalate_singleton, hfirst]
          rfl
      | cons k items =>
          have hrest := @ih (readBack j :: done) .value (List.cons_ne_nil k items)
            (fun l hl => h l (List.mem_cons_of_mem j hl)) (.inl rfl)
          rw [List.map_cons, List.map_cons, List.intercalate_cons_cons, List.append_assoc,
            List.append_assoc, hfirst]
          refine (run_cons rfl).trans (hrest.trans ?_)
          simp only [List.map_cons, List.reverse_cons, List.append_assoc, List.cons_append,
            List.nil_append]

theorem completes_array {room : Nat} {items : List Json}
    (h : ∀ j ∈ items, Completes room (tokensOf j) (readBack j)) :
  Completes (room + 1) (tokensOf (.array items)) (readBack (.array items))
  := by
  intro r hr hroom us
  have hopen : r.step .bracketOpen
      = some ⟨.array [] :: r.containers, .valueOrEnd, .null⟩ := by
    rw [step, if_pos hr, opening, if_pos (by omega)]
  rw [tokensOf, readBack, itemTokens_eq_map, readBackItems_eq_map, List.cons_append, List.cons_append,
    run_cons hopen, List.append_assoc]
  by_cases hne : items = []
  · rw [hne]
    exact run_cons rfl
  · rw [run_items hne h (.inr rfl) (by omega), List.append_nil]
    refine (run_cons rfl).trans ?_
    rw [List.reverse_reverse]
    rfl

/-- A field of a name that the object does not have so far. -/
theorem run_field {room : Nat} {done : List (JsonString × Json)} {name last : JsonString}
    {j : Json} {ts us : List Token} {containers : List Container} {expected : Expected}
    (h : Completes room ts j) (hname : name ∉ done.map Prod.fst)
    (hexpected : expected = .name ∨ expected = .nameOrEnd)
    (hroom : containers.length + 1 + room ≤ nestingLimit) :
  run ⟨.object done last :: containers, expected, .null⟩ (.string name :: .colon :: ts ++ us)
    = run ⟨.object (done ++ [(name, j)]) name :: containers, .separator, .null⟩ us
  := by
  have hstep : step ⟨.object done last :: containers, expected, .null⟩ (.string name)
      = some ⟨.object done name :: containers, .colon, .null⟩ := by
    rcases hexpected with rfl | rfl
    · rfl
    · rfl
  rw [List.cons_append, List.cons_append, run_cons hstep]
  refine (run_cons rfl).trans ?_
  rw [h ⟨.object done name :: containers, .value, .null⟩ rfl hroom, complete,
    setField_of_notMem hname]

/-- The fields of an object, with commas between them. -/
theorem run_fields {room : Nat} {fields done : List (JsonString × Json)} {name : JsonString}
    {containers : List Container} {expected : Expected} {us : List Token} (hne : fields ≠ [])
    (h : ∀ f ∈ fields, Completes room (tokensOf f.2) (readBack f.2))
    (hnames : (done.map Prod.fst ++ fields.map Prod.fst).Nodup)
    (hexpected : expected = .name ∨ expected = .nameOrEnd)
    (hroom : containers.length + 1 + room ≤ nestingLimit) :
  ∃ last, run ⟨.object done name :: containers, expected, .null⟩
      ([Token.comma].intercalate
        (fields.map fun f => .string f.1 :: .colon :: tokensOf f.2) ++ us)
    = run ⟨.object (done ++ fields.map fun f => (f.1, readBack f.2)) last :: containers,
        .separator, .null⟩ us
  := by
  induction fields generalizing done name expected with
  | nil => exact absurd rfl hne
  | cons f fields ih =>
      have hnotMem : f.1 ∉ done.map Prod.fst := by
        intro hmem
        exact (List.nodup_append.mp hnames).2.2 _ hmem _ List.mem_cons_self rfl
      have hfirst (us : List Token) :
          run ⟨.object done name :: containers, expected, .null⟩
              (.string f.1 :: .colon :: tokensOf f.2 ++ us)
            = run ⟨.object (done ++ [(f.1, readBack f.2)]) f.1 :: containers, .separator, .null⟩ us :=
        run_field (h f List.mem_cons_self) hnotMem hexpected hroom
      cases fields with
      | nil =>
          use f.1
          rw [List.map_singleton, List.intercalate_singleton, hfirst]
          rfl
      | cons g fields =>
          have hnames' : ((done ++ [(f.1, readBack f.2)]).map Prod.fst
              ++ (g :: fields).map Prod.fst).Nodup := by
            simpa using hnames
          obtain ⟨last, hrest⟩ := @ih _ f.1 .name (List.cons_ne_nil g fields)
            (fun k hk => h k (List.mem_cons_of_mem f hk)) hnames' (.inl rfl)
          use last
          rw [List.map_cons, List.map_cons, List.intercalate_cons_cons, List.append_assoc,
            List.append_assoc, hfirst]
          refine (run_cons rfl).trans (hrest.trans ?_)
          simp only [List.map_cons, List.append_assoc, List.singleton_append]

theorem completes_object {room : Nat} {fields : List (JsonString × Json)}
    (hnames : (fields.map Prod.fst).Nodup)
    (h : ∀ f ∈ fields, Completes room (tokensOf f.2) (readBack f.2)) :
  Completes (room + 1) (tokensOf (.object fields)) (readBack (.object fields))
  := by
  intro r hr hroom us
  have hopen : r.step .braceOpen
      = some ⟨.object [] [] :: r.containers, .nameOrEnd, .null⟩ := by
    rw [step, if_pos hr, opening, if_pos (by omega)]
  rw [tokensOf, readBack, fieldTokens_eq_map, readBackFields_eq_map, List.cons_append,
    List.cons_append, run_cons hopen, List.append_assoc]
  by_cases hne : fields = []
  · rw [hne]
    exact run_cons rfl
  · have hroom' : r.containers.length + 1 + room ≤ nestingLimit := by omega
    obtain ⟨last, hrun⟩ := @run_fields room fields [] [] r.containers .nameOrEnd
      ([.braceClose] ++ us) hne h hnames (.inr rfl) hroom'
    rw [hrun]
    exact run_cons rfl

end Reading

/-- Reading the tokens of a value completes the value. -/
theorem completes_tokensOf {j : Json} {room : Nat} (h : Sound room j) :
  Reading.Completes room (tokensOf j) (readBack j)
  := by
  induction h with
  | null => exact Reading.completes_scalar _
  | bool b => exact Reading.completes_scalar _
  | int h => exact Reading.completes_scalar _
  | float x => exact Reading.completes_scalar _
  | string h => exact Reading.completes_string _
  | array h ih => exact Reading.completes_array ih
  | object names joined h ih => exact Reading.completes_object names ih

theorem ofTokens?_tokensOf {j : Json} (h : Sound nestingLimit j) :
  ofTokens? (tokensOf j) = some (readBack j)
  := by
  have hrun := completes_tokensOf h Reading.start rfl (Nat.le_of_eq (Nat.zero_add _)) []
  rw [List.append_nil] at hrun
  rw [ofTokens?, hrun]
  rfl

/-- Reading a printed value gives the value back. -/
theorem parse?_printIndented {j : Json} (h : Sound nestingLimit j) :
  parse? (printIndented 0 j ++ ['\n']) = some (readBack j)
  := by
  have hlex := lexes_printIndented h 0 ['\n'] (endsNumber_singleton (by decide))
  rw [parse?, tokenize, hlex]
  exact (congrArg _ (List.append_nil _)).trans (ofTokens?_tokensOf h)

end TagNavigator.Json
