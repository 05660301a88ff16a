import Mathlib.Data.List.Basic
import Mathlib.Data.List.InsertIdx
import Reckoner.Expression

/-! # Expressions as items and as two lists

An expression shows its items, each an operand with the operator behind it. Read off the items, it
is two lists: the operands in order, and the operators in order (`Expression.lists`). Every edit of
an expression is an edit of its items, in which operators are written and taken over one by one
(`Items.edit`), and an edit of the two lists (`Lists.edit`), with the same fault where it fails and
the same item where one is taken out. So along every run of edits an operator never changes its
place between two operands.

* `getElem?_items`: the items are the operands, each with the operator at its own index.
* `items_edit`, `lists_edit`: one edit.
* `forall_operands_step`: what one edit does to a property of all operands.
* `lists_of_edits`: the expressions that edits lead to. -/

namespace Reckoner

/-! ### Edits as data -/

/-- What comes into an expression: a bare value, a number that was read, or an item, whose operator
is left behind. -/
inductive Incoming where
  | value (x : Float)
  | reading (r : Reading)
  | item (i : Item)

def Incoming.operand : Incoming → Operand
  | value x => ⟨x, none⟩
  | reading r => r.operand
  | item i => i.operand

/-- An edit of an expression. -/
inductive Edit where
  | start (xs : List Incoming)
  | append (xs : List Incoming)
  | setOperator (index : Nat) (op : Operator)
  | setValue (index : Nat) (value : Float)
  | deleteAt (index : Nat)
  | clear

/-- What an edit puts into an expression has a property: so have the operands that come in, and a
value that is set does not spoil it. -/
def Edit.Keeps (P : Operand → Prop) : Edit → Prop
  | start xs | append xs => ∀ x ∈ xs, P x.operand
  | setValue _ value => ∀ x, P x → P { x with value }
  | _ => True

/-- What an edit leaves: what it makes, or what there was if it fails. -/
def leaves {α : Type} (x : α) : Except Fault (Option Item × α) → α
  | .ok (_, y) => y
  | .error _ => x

theorem leaves_map {α β : Type} (f : α → β) (x : α) (o : Except Fault (Option Item × α)) :
    leaves (f x) (o.map (Prod.map id f)) = f (leaves x o) := by
  cases o <;> rfl

namespace Expression

/-- Makes an edit. A deletion gives the item that is taken out. -/
def edit (e : Expression) : Edit → Except Fault (Option Item × Expression)
  | .start xs => .ok (none, sum (xs.map Incoming.operand))
  | .append xs => .ok (none, e.append (xs.map Incoming.operand))
  | .setOperator index op => (e.setOperator index op).map (none, ·)
  | .setValue index value => (e.setValue index value).map (none, ·)
  | .deleteAt index => (e.deleteAt index).map fun (i, e') => (some i, e')
  | .clear => .ok (none, empty)

/-- The expression after an edit, which is the same one if the edit fails. -/
def step (e : Expression) (a : Edit) : Expression := leaves e (e.edit a)

/-- The expression that edits make of the empty one. -/
def ofEdits (edits : List Edit) : Expression := edits.foldl step empty

end Expression

/-! ### Operators inside the items -/

namespace Items

def setNext (op : Option Operator) (i : Item) : Item := { i with next := op }

def setValue (value : Float) (i : Item) : Item := { i with operand := { i.operand with value } }

/-- Adds an operand. The item that was last gets an addition unless it has an operator already. -/
def push (items : List Item) (x : Operand) : List Item :=
  items.modify (items.length - 1) (fun i => { i with next := some (i.next.getD .add) }) ++
    [⟨x, none⟩]

/-- Makes an edit of an expression on its items, in which the operators are written one by one. -/
def edit (items : List Item) : Edit → Except Fault (Option Item × List Item)
  | .start xs => .ok (none, (xs.map Incoming.operand).foldl push [])
  | .append xs => .ok (none, (xs.map Incoming.operand).foldl push items)
  | .setOperator index op =>
    if index < items.length - 1 then .ok (none, items.modify index (setNext (some op)))
    else .error (.outOfRange index (items.length - 1))
  | .setValue index value =>
    if index < items.length then .ok (none, items.modify index (setValue value))
    else .error (.outOfRange index items.length)
  | .deleteAt index =>
    match items[index]? with
    | some i =>
      -- the item in front takes over the operator of the one that is gone
      let rest := items.eraseIdx index
      .ok (some i, if 0 < index then rest.modify (index - 1) (setNext i.next) else rest)
    | none => .error (.outOfRange index items.length)
  | .clear => .ok (none, [])

/-- What edits make of no items. -/
def ofEdits (edits : List Edit) : List Item :=
  edits.foldl (fun items a => leaves items (edit items a)) []

end Items

/-! ### Two lists -/

/-- Operands, and operators between neighbours. -/
structure Lists where
  operands : List Operand := []
  operators : List Operator := []

namespace Lists

/-- Makes an edit of an expression on its two lists. -/
def edit (l : Lists) : Edit → Except Fault (Option Item × Lists)
  | .start xs => .ok (none, ⟨xs.map Incoming.operand, .replicate (xs.length - 1) .add⟩)
  | .append xs =>
    let operands := l.operands ++ xs.map Incoming.operand
    let bridges := operands.length - 1 - l.operators.length
    .ok (none, ⟨operands, l.operators ++ .replicate bridges .add⟩)
  | .setOperator index op =>
    if index < l.operators.length then
      .ok (none, { l with operators := l.operators.set index op })
    else .error (.outOfRange index l.operators.length)
  | .setValue index value =>
    if index < l.operands.length then
      .ok (none, { l with operands := l.operands.modify index fun x => { x with value } })
    else .error (.outOfRange index l.operands.length)
  | .deleteAt index =>
    match l.operands[index]? with
    | some x =>
      -- the operator in front goes too, and with the first operand the one behind it
      .ok (some ⟨x, l.operators[index]?⟩,
        ⟨l.operands.eraseIdx index, l.operators.eraseIdx (index - 1)⟩)
    | none => .error (.outOfRange index l.operands.length)
  | .clear => .ok (none, {})

/-- The lists after an edit, which are the same if the edit fails. -/
def step (l : Lists) (a : Edit) : Lists := leaves l (l.edit a)

/-- What edits make of two empty lists. -/
def ofEdits (edits : List Edit) : Lists := edits.foldl step {}

end Lists

namespace Expression

/-- The operands and the operators of an expression, as its items show them. -/
def lists (e : Expression) : Lists := ⟨e.items.map Item.operand, e.items.filterMap Item.next⟩

theorem lists_eq (e : Expression) : e.lists = ⟨e.operands, e.operators⟩ := by
  rw [lists, map_operand_items, filterMap_next_items]

theorem length_items (e : Expression) : e.items.length = e.operands.length := by
  rw [← map_operand_items, List.length_map]

/-! ### Items -/

theorem getElem?_itemsFrom (first : Operand) (links : List Link) (i : Nat) :
    (itemsFrom first links)[i]? =
      (first :: links.map Link.operand)[i]?.map (⟨·, (links.map Link.operator)[i]?⟩) := by
  induction links generalizing first i with
  | nil => cases i <;> simp [itemsFrom]
  | cons l links ih =>
    cases i with
    | zero => simp [itemsFrom]
    | succ i => simpa [itemsFrom] using ih l.operand i

/-- **The items are the operands, each with the operator at its own index**; so the last one, at
whose index there is no operator, has none. -/
theorem getElem?_items (e : Expression) (i : Nat) :
    e.items[i]? = e.operands[i]?.map (⟨·, e.operators[i]?⟩) := by
  cases e with
  | empty => rfl
  | chain first links => exact getElem?_itemsFrom first links i

theorem isSome_next_iff (e : Expression) (i : Fin e.items.length) :
    (e.items[i].next).isSome ↔ i + 1 < e.items.length := by
  have hitem := getElem?_items e i
  have hlen := length_items e
  have hops : e.operators.length = e.operands.length - 1 := length_operators e
  have hi := i.isLt
  have hi' : i < e.operands.length := hlen ▸ hi
  rw [List.getElem?_eq_getElem hi, List.getElem?_eq_getElem hi', Option.map_some,
    Option.some.injEq] at hitem
  have hsome : (e.operators[(i : Nat)]?).isSome ↔ i < e.operators.length := by simp
  rw [Fin.getElem_fin, hitem, hsome]
  omega

/-! ### One edit on the items -/

theorem length_itemsFrom (first : Operand) (links : List Link) :
    (itemsFrom first links).length = links.length + 1 := by
  induction links generalizing first with
  | nil => rfl
  | cons l links ih => simp [itemsFrom, ih]

theorem itemsFrom_append_singleton (first : Operand) (links : List Link) (x : Operand) :
    itemsFrom first (links ++ [⟨.add, x⟩]) = Items.push (itemsFrom first links) x := by
  induction links generalizing first with
  | nil => rfl
  | cons l links ih =>
    rw [List.cons_append, itemsFrom, ih, itemsFrom, Items.push, Items.push, List.length_cons,
      length_itemsFrom]
    rfl

theorem items_append (e : Expression) (xs : List Operand) :
    (e.append xs).items = xs.foldl Items.push e.items := by
  induction xs generalizing e with
  | nil => cases e <;> simp [append, sum]
  | cons x xs ih =>
    have hpush : (e.append [x]).items = Items.push e.items x := by
      cases e with
      | empty => rfl
      | chain first links => exact itemsFrom_append_singleton first links x
    rw [List.foldl_cons, ← hpush, ← ih, append_append, List.singleton_append]

theorem itemsFrom_modify_operator (op : Operator) (first : Operand) (links : List Link) {i : Nat}
    (h : i < links.length) :
    itemsFrom first (links.modify i fun l => { l with operator := op }) =
      (itemsFrom first links).modify i (Items.setNext (some op)) := by
  induction links generalizing first i with
  | nil => simp at h
  | cons l links ih =>
    cases i with
    | zero => rfl
    | succ i =>
      simp only [List.modify_succ_cons, itemsFrom]
      rw [ih l.operand (by simpa using h)]

theorem itemsFrom_modify_operand (value : Float) (first : Operand) (links : List Link) (i : Nat) :
    itemsFrom first (links.modify i fun l => { l with operand := { l.operand with value } }) =
      (itemsFrom first links).modify (i + 1) (Items.setValue value) := by
  induction links generalizing first i with
  | nil => simp [itemsFrom]
  | cons l links ih =>
    cases i with
    | zero => cases links <;> rfl
    | succ i =>
      simp only [List.modify_succ_cons, itemsFrom]
      rw [ih]

theorem itemsFrom_eraseIdx (first : Operand) (links : List Link) {i : Nat} (h : i < links.length) :
    itemsFrom first (links.eraseIdx i) =
      ((itemsFrom first links).eraseIdx (i + 1)).modify i
        (Items.setNext (links[i + 1]?.map Link.operator)) := by
  induction links generalizing first i with
  | nil => simp at h
  | cons l links ih =>
    cases i with
    | zero => cases links <;> rfl
    | succ i =>
      simp only [List.eraseIdx_cons_succ, itemsFrom, List.getElem?_cons_succ, List.modify_succ_cons]
      rw [ih l.operand (by simpa using h)]

/-- **An edit of an expression is the edit of its items**, which leaves no operator behind the last
one and none missing in front of it. -/
theorem items_edit (e : Expression) (a : Edit) :
    (e.edit a).map (Prod.map id items) = Items.edit e.items a := by
  cases a with
  | start xs =>
    have hsum := items_append empty (xs.map Incoming.operand)
    exact congrArg (fun items => Except.ok (none, items)) hsum
  | append xs => simp [edit, Items.edit, Except.map, items_append]
  | clear => rfl
  | setOperator index op =>
    cases e with
    | empty => rfl
    | chain first links =>
      simp only [edit, setOperator, Items.edit, items, length_itemsFrom, operators, List.length_map,
        Nat.add_sub_cancel]
      split
      · rename_i h
        simp [Except.map, items, itemsFrom_modify_operator op first links h]
      · rfl
  | setValue index value =>
    cases e with
    | empty => rfl
    | chain first links =>
      cases index with
      | zero => cases links <;> rfl
      | succ i =>
        simp only [edit, setValue, Items.edit, items, length_itemsFrom, Nat.add_lt_add_iff_right]
        split
        · simp [Except.map, items, itemsFrom_modify_operand]
        · simp [Except.map, length, operands]
  | deleteAt index =>
    cases e with
    | empty => rfl
    | chain first links =>
      cases index with
      | zero => cases links <;> rfl
      | succ i =>
        have hitem := getElem?_itemsFrom first links (i + 1)
        cases hlink : links[i]? with
        | none =>
          simp [edit, deleteAt, hlink, Items.edit, items, hitem, Except.map, length, operands,
            length_itemsFrom]
        | some l =>
          have hi : i < links.length := (List.getElem?_eq_some_iff.mp hlink).1
          simp [edit, deleteAt, hlink, Items.edit, items, hitem, Except.map,
            itemsFrom_eraseIdx first links hi]

/-! ### One edit on the two lists -/

theorem lists_sum (xs : List Operand) :
    (sum xs).lists = ⟨xs, .replicate (xs.length - 1) .add⟩ := by
  rw [lists_eq]
  cases xs with
  | nil => rfl
  | cons x xs => simp [sum, operands, operators, Function.comp_def, List.map_const']

theorem lists_append (e : Expression) (xs : List Operand) :
    (e.append xs).lists =
      ⟨e.operands ++ xs,
        e.operators ++ .replicate ((e.operands ++ xs).length - 1 - e.operators.length) .add⟩ := by
  cases e with
  | empty => simpa [append, operands, operators] using lists_sum xs
  | chain first links =>
    rw [lists_eq, operands_append]
    simp [append, operands, operators, Function.comp_def, List.map_const']

theorem lists_append_of_ne_empty {e : Expression} (h : e ≠ empty) (xs : List Operand) :
    (e.append xs).lists =
      ⟨e.lists.operands ++ xs, e.lists.operators ++ .replicate xs.length .add⟩ := by
  cases e with
  | empty => exact absurd rfl h
  | chain first links =>
    rw [lists_append, lists_eq]
    simp [operands, operators]

theorem map_modify {α β : Type} {f : α → α} {k : β → β} {g : α → β} (h : ∀ x, g (f x) = k (g x))
    (xs : List α) (i : Nat) : (xs.modify i f).map g = (xs.map g).modify i k := by
  refine List.ext_getElem? fun j => ?_
  simp only [List.getElem?_map, List.getElem?_modify, Option.map_eq_map, Option.map_map,
    Function.comp_def]
  congr 1
  funext x
  split <;> simp [h]

theorem map_modify_eq_map {α β : Type} {f : α → α} {g : α → β} (h : ∀ x, g (f x) = g x)
    (xs : List α) (i : Nat) : (xs.modify i f).map g = xs.map g := by
  have hid := map_modify (k := id) h xs i
  rwa [List.modify_id] at hid

theorem lists_setOperator (e : Expression) (index : Nat) (op : Operator) :
    (e.edit (.setOperator index op)).map (Prod.map id lists) =
      e.lists.edit (.setOperator index op) := by
  rw [lists_eq]
  cases e with
  | empty => rfl
  | chain first links =>
    unfold edit Lists.edit setOperator
    dsimp only
    split
    · have hoperands := map_modify_eq_map (f := fun l : Link => { l with operator := op })
        (g := Link.operand) (fun _ => rfl) links index
      have hoperators := map_modify (f := fun l : Link => { l with operator := op })
        (g := Link.operator) (k := fun _ => op) (fun _ => rfl) links index
      simp only [Except.map, Prod.map, id, lists_eq, operands, operators, hoperands, hoperators,
        List.set_eq_modify]
    · rfl

theorem lists_setValue (e : Expression) (index : Nat) (value : Float) :
    (e.edit (.setValue index value)).map (Prod.map id lists) =
      e.lists.edit (.setValue index value) := by
  rw [lists_eq]
  cases e with
  | empty => rfl
  | chain first links =>
    cases index with
    | zero => simp [edit, Lists.edit, setValue, Except.map, lists_eq, operands, operators]
    | succ i =>
      unfold edit Lists.edit setValue
      have hlength : i + 1 < (chain first links).operands.length ↔ i < links.length := by
        simp [operands]
      simp only [hlength]
      split
      · have hoperands :=
          map_modify (f := fun l : Link => { l with operand := { l.operand with value } })
          (g := Link.operand) (k := fun x => { x with value }) (fun _ => rfl) links i
        have hoperators := map_modify_eq_map
          (f := fun l : Link => { l with operand := { l.operand with value } })
          (g := Link.operator) (fun _ => rfl) links i
        simp only [Except.map, Prod.map, id, lists_eq, operands, operators, hoperands, hoperators,
          List.modify_succ_cons]
      · rfl

theorem lists_deleteAt (e : Expression) (index : Nat) :
    (e.edit (.deleteAt index)).map (Prod.map id lists) = e.lists.edit (.deleteAt index) := by
  rw [lists_eq]
  cases e with
  | empty => rfl
  | chain first links =>
    cases index with
    | zero =>
      cases links <;>
        simp [edit, Lists.edit, deleteAt, Except.map, lists_eq, operands, operators]
    | succ i =>
      cases hlink : links[i]? with
      | none => simp [edit, Lists.edit, deleteAt, Except.map, operands, hlink, length]
      | some l =>
        simp [edit, Lists.edit, deleteAt, Except.map, lists_eq, operands, operators, hlink,
          List.eraseIdx_map]

/-- **An edit of an expression is the edit of its two lists.** -/
theorem lists_edit (e : Expression) (a : Edit) :
    (e.edit a).map (Prod.map id lists) = e.lists.edit a := by
  cases a with
  | start xs => simp [edit, Lists.edit, Except.map, lists_sum]
  | append xs =>
    have happend := lists_append e (xs.map Incoming.operand)
    simp only [edit, Lists.edit, Except.map, Prod.map, id, happend, lists_eq e]
  | setOperator index op => exact lists_setOperator e index op
  | setValue index value => exact lists_setValue e index value
  | deleteAt index => exact lists_deleteAt e index
  | clear => rfl

theorem lists_step (e : Expression) (a : Edit) : (e.step a).lists = e.lists.step a := by
  rw [step, Lists.step, ← lists_edit, leaves_map]

/-! ### Properties of the operands -/

theorem forall_mem_modify {α : Type} {P : α → Prop} {f : α → α} {xs : List α} (h : ∀ x ∈ xs, P x)
    (hf : ∀ x, P x → P (f x)) (i : Nat) : ∀ x ∈ xs.modify i f, P x := by
  intro x hx
  obtain ⟨j, hj⟩ := List.mem_iff_getElem?.mp hx
  rw [List.getElem?_modify, Option.map_eq_map, Option.map_eq_some_iff] at hj
  obtain ⟨y, hy, rfl⟩ := hj
  have hmem := h y (List.mem_of_getElem? hy)
  split
  · exact hf y hmem
  · exact hmem

/-- **What is true of all operands stays true in an edit**, if it is true of those that come in and
not spoilt by the value that is set. -/
theorem forall_operands_step {P : Operand → Prop} {e : Expression} {a : Edit}
    (h : ∀ x ∈ e.operands, P x) (ha : a.Keeps P) : ∀ x ∈ (e.step a).operands, P x := by
  have hlists := lists_step e a
  rw [lists_eq, lists_eq] at hlists
  rw [show (e.step a).operands = (Lists.step ⟨e.operands, e.operators⟩ a).operands from
    congrArg Lists.operands hlists]
  unfold Lists.step Lists.edit
  cases a with
  | start xs => exact List.forall_mem_map.mpr ha
  | append xs => exact List.forall_mem_append.mpr ⟨h, List.forall_mem_map.mpr ha⟩
  | setOperator index op =>
    dsimp only
    split <;> exact h
  | setValue index value =>
    dsimp only
    split
    · exact forall_mem_modify h ha index
    · exact h
  | deleteAt index =>
    dsimp only
    split
    · exact fun x hx => h x (List.mem_of_mem_eraseIdx hx)
    · exact h
  | clear => exact List.forall_mem_nil P

/-! ### Runs of edits -/

theorem lists_ofEdits (edits : List Edit) : (ofEdits edits).lists = Lists.ofEdits edits :=
  (List.foldl_hom lists fun e a => (lists_step e a).symm).symm

theorem items_ofEdits (edits : List Edit) : (ofEdits edits).items = Items.ofEdits edits := by
  refine (List.foldl_hom items fun e a => ?_).symm
  rw [step, ← items_edit, leaves_map]

/-- **The expressions that edits lead to** have the items and the two lists that the same edits lead
to. There is one operator fewer than operands, every item but the last has its operator and the last
has none, and any further edit acts on the items alone and on the two lists alone, in what it gives,
in how it fails and in what it leaves. -/
theorem lists_of_edits (edits : List Edit) :
    (ofEdits edits).items = Items.ofEdits edits ∧
    (ofEdits edits).lists = Lists.ofEdits edits ∧
    (ofEdits edits).lists.operators.length = (ofEdits edits).lists.operands.length - 1 ∧
    (∀ i : Fin (ofEdits edits).items.length,
      ((ofEdits edits).items[i].next).isSome ↔ i + 1 < (ofEdits edits).items.length) ∧
    (∀ a, ((ofEdits edits).edit a).map (Prod.map id items) = Items.edit (ofEdits edits).items a) ∧
    (∀ a, ((ofEdits edits).edit a).map (Prod.map id lists) = (ofEdits edits).lists.edit a) ∧
    ∀ a, ((ofEdits edits).step a).lists = (ofEdits edits).lists.step a := by
  refine ⟨items_ofEdits edits, lists_ofEdits edits, ?_, isSome_next_iff _, items_edit _,
    lists_edit _, lists_step _⟩
  rw [lists_eq]
  exact length_operators _

end Expression

end Reckoner
