import Mathlib.Data.Finset.Card
import Stencil.Proofs.Filtering
import Stencil.Proofs.Positions
import Stencil.Value.Bytes

/-!
# `Stencil/Proofs/Entries.lean` — what a map remembers of its entries

A map is made from a list of entries, which may come in any order and have several values for a
key. What it remembers of them is little:

> **the keys that there are, and for each of them the value of its last entry.**

Neither the order of the entries nor a value that was replaced can be found out afterwards. The
reason is that there is only one map to a look-up (`Fields.ext_get?`). Its entries are kept in
ascending order of the keys, each key once, and so which keys are found with which values leaves no
choice. Hence lists of entries that agree on the last value of every key make one and the same map,
and only such lists do (`Fields.ofList_eq_iff`).
-/

set_option autoImplicit false

namespace Stencil

/-- The last of the entries for the key has the value. -/
def LastEntry (entries : List (String × Value)) (key : String) (value : Value) : Prop :=
  ∃ before after, entries = before ++ (key, value) :: after ∧ ∀ entry ∈ after, entry.1 ≠ key

namespace Fields

/-! ## One map to a look-up -/

theorem get?_of_mem_toList : ∀ {lo : Option String} {fields : Fields lo} {key : String}
    {value : Value}, (key, value) ∈ fields.toList → fields.get? key = some value
  | _, .nil, _, _, mem => by cases mem
  | _, .cons key' _ _ rest, key, value, mem => by
    rw [get?_cons]
    rcases List.mem_cons.1 mem with here | later
    · cases here
      exact if_pos rfl
    · have listed : key ∈ rest.keys := List.mem_map_of_mem later
      have greater : key' < key := lt_of_mem_keys rest key listed key' rfl
      have other : key ≠ key' := by
        rintro rfl
        exact String.lt_irrefl key greater
      rw [if_neg other]
      exact get?_of_mem_toList later

theorem mem_toList_iff {lo : Option String} {fields : Fields lo} {key : String} {value : Value} :
    (key, value) ∈ fields.toList ↔ fields.get? key = some value :=
  ⟨get?_of_mem_toList, mem_toList_of_get?⟩

/-- Maps in which the same keys are found with the same values are the same. -/
theorem ext_get? : ∀ {lo : Option String} {fields fields' : Fields lo},
    (∀ key, fields.get? key = fields'.get? key) → fields = fields'
  | _, .nil, .nil, _ => rfl
  | _, .nil, .cons key _ _ _, same => by
    have found := same key
    rw [get?_cons, if_pos rfl] at found
    cases found
  | _, .cons key _ _ _, .nil, same => by
    have found := same key
    rw [get?_cons, if_pos rfl] at found
    cases found
  | _, .cons key above value rest, .cons key' above' value' rest', same => by
    have keys : key :: rest.keys = key' :: rest'.keys := by
      rw [← keys_cons key above value, ← keys_cons key' above' value', keys_eq_iff]
      intro name
      rw [mem_keys_iff, mem_keys_iff, same]
    obtain ⟨rfl, -⟩ := List.cons_eq_cons.1 keys
    have first : value = value' := by simpa using same key
    have others : rest = rest' := by
      refine ext_get? fun name => ?_
      by_cases here : name = key
      · rw [here, get?_bound, get?_bound]
      · simpa [here] using same name
    rw [first, others]

/-! ## Maps made from entries -/

section OfList

variable {entries entries' : List (String × Value)} {key : String} {value : Value}

theorem get?_ofList_iff : (ofList entries).get? key = some value ↔ LastEntry entries key value := by
  rw [get?_ofList, List.lookup_eq_some_iff]
  constructor
  · rintro ⟨after, before, split, others⟩
    refine ⟨before.reverse, after.reverse, ?_, fun entry mem => ?_⟩
    · rw [← List.reverse_reverse entries, split]
      simp
    · exact Ne.symm (bne_iff_ne.1 (others entry (List.mem_reverse.1 mem)))
  · rintro ⟨before, after, rfl, others⟩
    refine ⟨after.reverse, before.reverse, by simp, fun entry mem => ?_⟩
    exact bne_iff_ne.2 (others entry (List.mem_reverse.1 mem)).symm

theorem mem_keys_ofList : key ∈ (ofList entries).keys ↔ key ∈ entries.map Prod.fst := by
  rw [mem_keys_iff, get?_ofList, List.lookup_isSome_iff, List.mem_map]
  simp only [List.mem_reverse, beq_iff_eq, @eq_comm _ key]

/-- There are as many entries in the map as there are different keys. -/
theorem size_ofList : (ofList entries).size = (entries.map Prod.fst).toFinset.card := by
  have distinct : (ofList entries).keys.Nodup := (ofList entries).pairwise_keys.nodup
  have same : (ofList entries).keys.toFinset = (entries.map Prod.fst).toFinset := by
    ext key
    rw [List.mem_toFinset, List.mem_toFinset, mem_keys_ofList]
  rw [← length_keys, ← List.toFinset_card_of_nodup distinct, same]

/-- **Entries make the same map just when their last ones agree.** -/
theorem ofList_eq_iff : ofList entries = ofList entries' ↔
    ∀ key value, LastEntry entries key value ↔ LastEntry entries' key value := by
  constructor
  · intro same key value
    rw [← get?_ofList_iff, same, get?_ofList_iff]
  · intro agree
    refine ext_get? fun key => Option.ext fun value => ?_
    rw [get?_ofList_iff, get?_ofList_iff]
    exact agree key value

end OfList

end Fields

/-- **A map forgets the order of its entries.** It has the keys of the entries, each with the value
of its last entry, and lists them in ascending order of their bytes. Lists of entries that agree on
the last value of every key, and only those, make the same map. What they make has the same text,
elements and fields, counts the same as a condition and is looped over in the same way. -/
theorem maps_forget_insertion_order (entries : List (String × Value)) :
    let fields := Fields.ofList entries
    (∀ key, key ∈ fields.keys ↔ key ∈ entries.map Prod.fst) ∧
    (∀ key value, fields.get? key = some value ↔ LastEntry entries key value) ∧
    (∀ key value, (key, value) ∈ fields.toList ↔ LastEntry entries key value) ∧
    fields.keys.Pairwise (fun key key' => bytes key < bytes key') ∧
    fields.toList.Pairwise (fun entry entry' => bytes entry.1 < bytes entry'.1) ∧
    fields.size = (entries.map Prod.fst).toFinset.card ∧
    ∀ entries', let fields' := Fields.ofList entries'
      (fields = fields' ↔
        ∀ key value, LastEntry entries key value ↔ LastEntry entries' key value) ∧
      ((∀ key value, LastEntry entries key value ↔ LastEntry entries' key value) →
        let v := Value.map fields
        let w := Value.map fields'
        v.text = w.text ∧ v.toSequence? = w.toSequence? ∧ v.field = w.field ∧
        v.hasField = w.hasField ∧ v.isTruthy = w.isTruthy ∧
        ∀ (bound : Nat) (vars : List String) (source source' : Expr) (filter : Option Expr)
          (body otherwise : Body) (s : Session),
          source.eval s.context.find? = .ok v → source'.eval s.context.find? = .ok w →
          (Statement.loop vars source filter body otherwise).render bound s =
            (Statement.loop vars source' filter body otherwise).render bound s) := by
  intro fields
  have ascending : fields.keys.Pairwise fun key key' => bytes key < bytes key' :=
    fields.pairwise_keys.imp bytes_lt_bytes
  refine ⟨fun _ => Fields.mem_keys_ofList, fun _ _ => Fields.get?_ofList_iff, fun key value => ?_,
    ascending, ascending.of_map Prod.fst fun _ _ less => less, Fields.size_ofList,
    fun entries' => ⟨Fields.ofList_eq_iff, fun agree => ?_⟩⟩
  · rw [Fields.mem_toList_iff, Fields.get?_ofList_iff]
  · have same : fields = Fields.ofList entries' := Fields.ofList_eq_iff.2 agree
    rw [← same]
    refine ⟨rfl, rfl, rfl, rfl, rfl, ?_⟩
    intro bound vars source source' filter body otherwise s evaluated evaluated'
    unfold Statement.render
    rw [loop_eq_of_elements evaluated rfl, loop_eq_of_elements evaluated' rfl]

/-- Of three entries the first is replaced, and the other list has the ones that remain in another
order. The first byte decides that `z` comes before `é`. -/
theorem maps_forget_insertion_order_of_replaced :
    let entries : List (String × Value) := [("é", .int 1), ("z", .empty), ("é", .int 2)]
    let entries' : List (String × Value) := [("é", .int 2), ("z", .empty)]
    let loop (entries : List (String × Value)) : Statement :=
      .loop ["k"] (.const (.map (.ofList entries))) none [.output (.var "k")] []
    let s := Session.start (.start .empty .empty {})
    LastEntry entries "é" (.int 2) ∧ (Fields.ofList entries).size = 2 ∧
      (∀ key value, LastEntry entries key value ↔ LastEntry entries' key value) ∧
      (Value.map (.ofList entries)).text = (Value.map (.ofList entries')).text ∧
      (Value.map (.ofList entries)).text = "\x7b'z': none, 'é': 2\x7d" ∧
      (loop entries).render 0 s = (loop entries').render 0 s := by
  intro entries entries' loop s
  obtain ⟨-, last, -, -, -, size, others⟩ := maps_forget_insertion_order entries
  have agree := (others entries').1.1 rfl
  obtain ⟨text, -, -, -, -, loops⟩ := (others entries').2 agree
  refine ⟨(last "é" (.int 2)).1 rfl, rfl, agree, text, by decide +kernel, ?_⟩
  exact loops 0 ["k"] _ _ none [.output (.var "k")] [] s rfl rfl

end Stencil
