import TypeLayout.Json.Shape
import TypeLayout.Proofs.Json.Reading
import TypeLayout.Proofs.Stateful
/-! Values, scalars and lists from the texts of a tree, and values that are passed over. A value
is read if it is nested no deeper than allowed; one that is passed over may be nested to any
depth, and its strings and numbers need not stand for anything. -/

namespace TypeLayout.Json

def isScalar : Json → Bool
  | .array _ | .object _ => false
  | _ => true

theorem le_total_of_mem {α : Type} (measure : α → Nat) (total : List α → Nat)
    (step : ∀ x xs, total (x :: xs) = max (measure x) (total xs)) {x : α} {xs : List α}
    (h : x ∈ xs) : measure x ≤ total xs := by
  induction xs with
  | nil => cases h
  | cons y ys ih =>
    rw [step]
    cases h with
    | head => exact Nat.le_max_left ..
    | tail _ h => exact Nat.le_trans (ih h) (Nat.le_max_right ..)

namespace Tree

def isScalar : Tree → Bool
  | .array _ | .object _ => false
  | _ => true

def items? : Tree → Option (List Tree)
  | .array js => some js
  | _ => none

def member? {γ : Type} (value : Tree → Option γ) (m : Literal × Tree) : Option (String × γ) :=
  m.1.text?.bind fun key => (value m.2).map (key, ·)

def within? : Nat → Tree → Option Json
  | 0, j => if j.isScalar then j.value? else none
  | d + 1, .array js => Json.array <$> js.mapM (within? d)
  | d + 1, .object ms => Json.object <$> ms.mapM (member? (within? d))
  | _ + 1, j => j.value?

theorem value?_array (js : List Tree) : value? (.array js) = Json.array <$> js.mapM value? := by
  have items (js : List Tree) : itemsValue? js = js.mapM value? := by
    induction js with
    | nil => rfl
    | cons j js ih => simp [itemsValue?, ih]
  rw [value?, items]

theorem value?_object (ms : List (Literal × Tree)) :
    value? (.object ms) = Json.object <$> ms.mapM (member? value?) := by
  have members (ms : List (Literal × Tree)) : membersValue? ms = ms.mapM (member? value?) := by
    induction ms with
    | nil => rfl
    | cons m ms ih =>
      obtain ⟨k, j⟩ := m
      simp only [membersValue?, ih, List.mapM_cons, member?]
      cases k.text? <;> cases j.value? <;> rfl
  rw [value?, members]

theorem isScalar_of_value? {T : Tree} {j : Json} (h : T.value? = some j) :
    j.isScalar = T.isScalar := by
  cases T with
  | null | bool b =>
    cases h
    rfl
  | number n =>
    have number := Reader.isNumber_of_value? h
    cases j <;> first | rfl | cases number
  | string s =>
    obtain ⟨text, -, rfl⟩ := Option.map_eq_some_iff.mp h
    rfl
  | array js =>
    rw [value?_array] at h
    obtain ⟨items, -, rfl⟩ := Option.map_eq_some_iff.mp h
    rfl
  | object ms =>
    rw [value?_object] at h
    obtain ⟨members, -, rfl⟩ := Option.map_eq_some_iff.mp h
    rfl

theorem depth_lt_of_mem {j : Tree} {js : List Tree} (h : j ∈ js) :
    j.depth < (Tree.array js).depth := by
  rw [depth]
  exact Nat.lt_succ_of_le (le_total_of_mem depth itemsDepth (fun _ _ => by rw [itemsDepth]) h)

theorem depth_lt_of_member {m : Literal × Tree} {ms : List (Literal × Tree)} (h : m ∈ ms) :
    m.2.depth < (Tree.object ms).depth := by
  rw [depth]
  exact Nat.lt_succ_of_le
    (le_total_of_mem (fun m => m.2.depth) membersDepth (fun _ _ => by rw [membersDepth]) h)

theorem induct {P : Tree → Prop} (scalar : ∀ j, j.isScalar = true → P j)
    (array : ∀ js, (∀ j ∈ js, P j) → P (.array js))
    (object : ∀ ms, (∀ m ∈ ms, P m.2) → P (.object ms)) (j : Tree) : P j := by
  induction deep : j.depth using Nat.strongRecOn generalizing j with
  | _ d ih =>
    subst deep
    cases j with
    | array js => exact array js fun j mem => ih _ (depth_lt_of_mem mem) j rfl
    | object ms => exact object ms fun m mem => ih _ (depth_lt_of_member mem) m.2 rfl
    | _ => exact scalar _ rfl

theorem member?_imp {γ : Type} {f g : Tree → Option γ} {m : Literal × Tree} {p : String × γ}
    (h : ∀ j, f m.2 = some j → g m.2 = some j) (run : member? f m = some p) :
    member? g m = some p := by
  simp only [member?, Option.bind_eq_some_iff, Option.map_eq_some_iff] at run ⊢
  obtain ⟨key, spelled, j, value, eq⟩ := run
  exact ⟨key, spelled, j, h j value, eq⟩

theorem member?_eq_some {γ : Type} {f : Tree → Option γ} {m : Literal × Tree} {w : String × γ} :
    member? f m = some w ↔ m.1.text? = some w.1 ∧ f m.2 = some w.2 := by
  simp only [member?, Option.bind_eq_some_iff, Option.map_eq_some_iff]
  constructor
  · rintro ⟨name, key, v, value, rfl⟩
    exact ⟨key, value⟩
  · rintro ⟨key, value⟩
    exact ⟨_, key, _, value, rfl⟩

theorem mapM_member?_cons {γ : Type} {f : Tree → Option γ} {k : Literal} {v : Tree}
    {ms : List (Literal × Tree)} {name : String} {us : List (String × γ)}
    (key : k.text? = some name) :
    ((k, v) :: ms).mapM (member? f) = some us ↔
      ∃ w vs, f v = some w ∧ ms.mapM (member? f) = some vs ∧ us = (name, w) :: vs := by
  rw [mapM_cons_eq_some]
  constructor
  · rintro ⟨⟨name', w⟩, vs, first, rest, rfl⟩
    obtain ⟨key', value⟩ := member?_eq_some.mp first
    obtain rfl : name = name' := Option.some.inj (key.symm.trans key')
    exact ⟨w, vs, value, rest, rfl⟩
  · rintro ⟨w, vs, value, rest, rfl⟩
    exact ⟨(name, w), vs, member?_eq_some.mpr ⟨key, value⟩, rest, rfl⟩

theorem within?_scalar {T : Tree} (scalar : T.isScalar = true) (d : Nat) :
    within? d T = T.value? := by
  cases d with
  | zero => rw [within?, if_pos scalar]
  | succ d => cases T <;> first | rfl | cases scalar

/-- Members may be read all at first and folded over then, or one by one. -/
theorem foldlM_member? {γ σ : Type} (read : Tree → Option γ)
    (step : σ → String × γ → Option σ) (ms : List (Literal × Tree)) (s : σ) :
    ms.foldlM (fun s m => m.1.text?.bind fun key => (read m.2).bind fun j => step s (key, j)) s =
      (ms.mapM (member? read)).bind fun vs => vs.foldlM step s := by
  induction ms generalizing s with
  | nil => rfl
  | cons m ms ih =>
    rw [List.foldlM_cons, List.mapM_cons, member?]
    simp only [ih, Option.bind_eq_bind]
    rcases m.1.text? with _ | key
    · rfl
    rcases read m.2 with _ | j
    · rfl
    simp only [Option.bind_some, Option.map_some]
    -- a refused step and a later unreadable member both give nothing, in either order
    rcases h : step s (key, j) with _ | s'
    · cases ms.mapM (member? read) <;> simp [h]
    · cases ms.mapM (member? read) <;> simp [h]

theorem within?_of_depth_le {d : Nat} {T : Tree} {j : Json} (shallow : T.depth ≤ d)
    (h : T.value? = some j) : within? d T = some j := by
  induction d generalizing T j with
  | zero =>
    cases T with
    | array js => simp [depth] at shallow
    | object ms => simp [depth] at shallow
    | _ => exact h
  | succ d ih =>
    cases T with
    | array js =>
      simp only [value?_array, within?, Option.map_eq_map, Option.map_eq_some_iff] at h ⊢
      obtain ⟨items, run, rfl⟩ := h
      refine ⟨items, mapM_imp (fun T mem j => ih ?_) run, rfl⟩
      have := depth_lt_of_mem mem
      omega
    | object ms =>
      simp only [value?_object, within?, Option.map_eq_map, Option.map_eq_some_iff] at h ⊢
      obtain ⟨members, run, rfl⟩ := h
      refine ⟨members, mapM_imp (fun m mem p => member?_imp fun j => ih ?_) run, rfl⟩
      have := depth_lt_of_member mem
      omega
    | _ => exact h

theorem value?_of_within? {d : Nat} {T : Tree} {j : Json} (h : within? d T = some j) :
    T.value? = some j := by
  induction d generalizing T j with
  | zero =>
    simp only [within?] at h
    split at h
    · exact h
    · cases h
  | succ d ih =>
    cases T with
    | array js =>
      simp only [value?_array, within?, Option.map_eq_map, Option.map_eq_some_iff] at h ⊢
      obtain ⟨items, run, rfl⟩ := h
      exact ⟨items, mapM_imp (fun T _ j => ih) run, rfl⟩
    | object ms =>
      simp only [value?_object, within?, Option.map_eq_map, Option.map_eq_some_iff] at h ⊢
      obtain ⟨members, run, rfl⟩ := h
      exact ⟨members, mapM_imp (fun m _ p => member?_imp fun j => ih) run, rfl⟩
    | _ => exact h

end Tree

namespace Reader

section

variable {α β : Type} {x : Reader α} {answer : Option α} {us : List Token} {cs : List Char}

theorem closeArray_run (h : Spaced (.mark .closeArray :: us) cs) :
    Arrives (closeArray cs) us (some ()) := by
  obtain ⟨rest, peeked, spaced⟩ := peek_mark h
  rw [closeArray, bind_ok peeked]
  exact ⟨rest, rfl, spaced⟩

theorem closeObject_run (h : Spaced (.mark .closeObject :: us) cs) :
    Arrives (closeObject cs) us (some ()) := by
  obtain ⟨rest, peeked, spaced⟩ := peek_mark h
  rw [closeObject, bind_ok peeked]
  exact ⟨rest, rfl, spaced⟩

theorem colon_run (h : Spaced (.mark .colon :: us) cs) : Arrives (colon cs) us (some ()) := by
  obtain ⟨rest, peeked, spaced⟩ := peek_mark h
  rw [colon, bind_ok peeked]
  exact ⟨rest, rfl, spaced⟩

theorem Arrives.placing (advance : List Char → List Char) (h : Arrives (x cs) us answer) :
    Arrives (match x cs with
      | .error f => .error (f.place advance)
      | ok => ok) us answer := by
  cases answer with
  | none =>
    obtain ⟨e, run⟩ := h
    exact ⟨e.place advance, by rw [run]⟩
  | some a =>
    obtain ⟨left, run, spaced⟩ := h
    exact ⟨left, by rw [run], spaced⟩

theorem Arrives.placed (h : Arrives (x cs) us answer) : Arrives (x.placed cs) us answer :=
  h.placing id

theorem ofMismatch_arrives (y : Except Mismatch α) (h : Spaced us cs) :
    Arrives (ofMismatch y cs) us y.toOption := by
  cases y with
  | ok a => exact ⟨cs, rfl, h⟩
  | error e => exact ⟨_, rfl⟩

theorem dispatch_digit {d : Char} (digit : isDigit d = true) (list map : Reader Json) :
    dispatch d list map = number false := by
  rw [dispatch, if_pos digit]
  all_goals exact isDigit_ne digit rfl

theorem skipScalar_digit {d : Char} (digit : isDigit d = true) : skipScalar d = skipNumber := by
  rw [skipScalar, if_pos digit]
  all_goals exact isDigit_ne digit rfl

theorem dispatch_scalar (j : Tree) (scalar : j.isScalar = true) (stops : Stops us)
    (h : Spaced (j.tokens ++ us) cs) :
    ∃ c rest, peek cs = .ok (some c, rest) ∧ c ≠ '[' ∧ c ≠ '{' ∧
      (∀ list map, Arrives (dispatch c list map rest) us j.value?) ∧
      Arrives (skipScalar c rest) us (some ()) := by
  cases j with
  | array js => cases scalar
  | object ms => cases scalar
  | null =>
    obtain ⟨rest, peeked, spaced⟩ := peek_run h
    exact ⟨_, _, peeked, by decide, by decide, fun _ _ => ⟨rest, rfl, spaced⟩, rest, rfl, spaced⟩
  | bool b =>
    obtain ⟨rest, peeked, spaced⟩ := peek_run h
    cases b <;>
      exact ⟨_, _, peeked, by decide, by decide, fun _ _ => ⟨rest, rfl, spaced⟩, rest, rfl, spaced⟩
  | string s =>
    obtain ⟨rest, peeked, spaced⟩ := peek_string h
    refine ⟨_, _, peeked, by decide, by decide, fun _ _ => ?_, rest, skipString_run s rest, spaced⟩
    exact (Arrives.of_toOption (string_run s rest) spaced).map
  | number n =>
    obtain ⟨rest, peeked, spaced⟩ := peek_run h
    have read := Arrives.of_toOption (number_run n (stops.quiet spaced)) spaced
    have passed : Arrives (skipNumber (n.unsigned ++ rest)) us (some ()) :=
      ⟨rest, skipNumber_run n (stops.quiet spaced), spaced⟩
    rcases n.chars_cons with ⟨negative, cons⟩ | ⟨d, ds, positive, cons, digit⟩
    · rw [negative] at read
      rw [Token.first, Token.chars, cons, List.headD_cons] at peeked
      exact ⟨_, _, peeked, by decide, by decide, fun _ _ => read, passed⟩
    · have unsigned : n.chars = n.unsigned := by simp [Numeral.chars, positive]
      rw [positive, ← unsigned, cons] at read
      rw [← unsigned, cons] at passed
      rw [Token.first, Token.chars, cons, List.headD_cons] at peeked
      refine ⟨_, _, peeked, isDigit_ne digit rfl, isDigit_ne digit rfl, fun _ _ => ?_, ?_⟩
      · rw [dispatch_digit digit]
        exact read
      · rw [skipScalar_digit digit]
        exact passed

theorem Arrives.pure (a : α) (h : Spaced us cs) :
    Arrives ((pure a : Reader α) cs) us (some a) := ⟨cs, rfl, h⟩

theorem Arrives.congr {r : Except Fault (α × List Char)} {answer' : Option α}
    (h : Arrives r us answer) (same : answer = answer') : Arrives r us answer' := same ▸ h

theorem Reads.map {ts : List Token} (reads : Reads x ts answer) (g : α → β) :
    Reads (do return g (← x)) ts (answer.map g) := by
  intro us cs stops h
  rw [Option.map_eq_bind]
  exact (reads us cs stops h).bind fun a left spaced => .pure (g a) spaced

theorem Reads.afterColon {ts : List Token} (reads : Reads x ts answer) :
    Reads (do colon; x) (.mark .colon :: ts) answer :=
  fun us _ stops h => (colon_run h).bind fun _ left spaced => reads us left stops spaced

theorem array_tokens (js : List Tree) (h : Spaced ((Tree.array js).tokens ++ us) cs) :
    ∃ rest, peek cs = .ok (some '[', '[' :: rest) ∧
      Spaced (Tree.itemsTokens js ++ .mark .closeArray :: us) rest := by
  have opened : Spaced (.mark .openArray ::
      (Tree.itemsTokens js ++ .mark .closeArray :: us)) cs := by
    simpa [Tree.tokens] using h
  exact peek_mark opened

theorem object_tokens (ms : List (Literal × Tree)) (h : Spaced ((Tree.object ms).tokens ++ us) cs) :
    ∃ rest, peek cs = .ok (some '{', '{' :: rest) ∧
      Spaced (Tree.membersTokens ms ++ .mark .closeObject :: us) rest := by
  have opened : Spaced (.mark .openObject ::
      (Tree.membersTokens ms ++ .mark .closeObject :: us)) cs := by
    simpa [Tree.tokens] using h
  exact peek_mark opened

theorem foldlM_collect {γ : Type} (f : γ → Option β) (xs : List γ) (acc : List β) :
    xs.foldlM (fun acc x => (f x).map (· :: acc)) acc =
      (xs.mapM f).map fun ys => ys.reverse ++ acc := by
  induction xs generalizing acc with
  | nil => rfl
  | cons x xs ih =>
    rw [List.foldlM_cons, List.mapM_cons]
    cases f x with
    | none => rfl
    | some y =>
      simp only [Option.map_some, Option.bind_eq_bind, Option.bind_some, ih]
      cases xs.mapM f <;> simp

theorem collect_elements {item : Reader β} {f : Tree → Option β} (js : List Tree)
    (reads : ∀ j ∈ js, Reads item j.tokens (f j))
    (h : Spaced (Tree.itemsTokens js ++ .mark .closeArray :: us) cs) :
    Arrives (foldElements (fun acc => do return (← item) :: acc) [] cs) (.mark .closeArray :: us)
      ((js.mapM f).map List.reverse) := by
  have items := foldElements_arrives js (fun j mem acc => (reads j mem).map (· :: acc)) [] h
  rw [foldlM_collect] at items
  exact items.congr (by simp)

theorem collect_members {item : Reader Json} {f : Tree → Option Json}
    (ms : List (Literal × Tree)) (reads : ∀ m ∈ ms, Reads item m.2.tokens (f m.2))
    (h : Spaced (Tree.membersTokens ms ++ .mark .closeObject :: us) cs) :
    Arrives (foldMembers (memberStep item) [] cs) (.mark .closeObject :: us)
      ((ms.mapM (Tree.member? f)).map List.reverse) := by
  have step (m) (mem : m ∈ ms) (key : String) (acc : List (String × Json)) :
      Reads (memberStep item key acc) (.mark .colon :: m.2.tokens)
        ((f m.2).map fun j => (key, j) :: acc) :=
    ((reads m mem).map fun j => (key, j) :: acc).afterColon
  refine (foldMembers_arrives (fun acc key j => (f j).map fun j => (key, j) :: acc)
    ms step [] h).congr ?_
  have collected := foldlM_collect (Tree.member? f) ms []
  simpa [Tree.member?, Option.map_bind, Function.comp_def] using collected

theorem value_reads (d : Nat) (j : Tree) : Reads (value d) j.tokens (j.within? d) := by
  induction d generalizing j with
  | zero =>
    intro us cs stops h
    cases j with
    | array js =>
      obtain ⟨rest, peeked, -⟩ := array_tokens js h
      rw [value, bind_ok peeked]
      exact ⟨_, rfl⟩
    | object ms =>
      obtain ⟨rest, peeked, -⟩ := object_tokens ms h
      rw [value, bind_ok peeked]
      exact ⟨_, rfl⟩
    | _ =>
      obtain ⟨c, rest, peeked, -, -, read, -⟩ := dispatch_scalar _ rfl stops h
      rw [value, bind_ok peeked]
      exact read _ _
  | succ d ih =>
    intro us cs stops h
    cases j with
    | array js =>
      obtain ⟨rest, peeked, spaced⟩ := array_tokens js h
      rw [value, bind_ok peeked]
      -- what is collected stands in reverse until the bracket is closed
      have items := (collect_elements js (fun j _ => ih j) spaced).bind fun items _ spaced =>
        (closeArray_run spaced).bind fun _ _ spaced => .pure (Json.array items.reverse) spaced
      exact items.congr (by cases h : js.mapM (Tree.within? d) <;> simp [Tree.within?, h])
    | object ms =>
      obtain ⟨rest, peeked, spaced⟩ := object_tokens ms h
      rw [value, bind_ok peeked]
      have members := (collect_members ms (fun m _ => ih m.2) spaced).bind fun ms _ spaced =>
        (closeObject_run spaced).bind fun _ _ spaced => .pure (Json.object ms.reverse) spaced
      exact members.congr (by
        cases h : ms.mapM (Tree.member? (Tree.within? d)) <;> simp [Tree.within?, h])
    | _ =>
      obtain ⟨c, rest, peeked, -, -, read, -⟩ := dispatch_scalar _ rfl stops h
      rw [value, bind_ok peeked]
      exact read _ _

/-! Passing over. -/

def Passes (j : Tree) : Prop :=
  ∀ (outer : List Bracket) (us : List Token) (cs text : List Char), Stops us →
    Spaced (j.tokens ++ us) cs → (j.tokens ++ us).length ≤ text.length + 1 →
      ∃ text' left, (skipStart outer >>= skipOpen text) cs = skipOpen text' (true, outer) left ∧
        Spaced us left ∧ us.length ≤ text'.length

section

variable {outer : List Bracket} {text : List Char} {isFirst : Bool}

theorem skipOpen_close {b : Bracket} {m : Mark} (closes : m.char = b.closing) (afterValue : Bool)
    (h : Spaced (.mark m :: us) cs) (enough : us.length < text.length) :
    ∃ text' left, skipOpen text (afterValue, b :: outer) cs = skipOpen text' (true, outer) left ∧
      Spaced us left ∧ us.length ≤ text'.length := by
  obtain ⟨rest, peeked, spaced⟩ := peek_mark h
  cases text with
  | nil => simp at enough
  | cons c text =>
    refine ⟨text, rest, ?_, spaced, by simpa [Nat.lt_succ_iff] using enough⟩
    rw [skipOpen, bind_ok peeked]
    simp [closes]

theorem skipOpen_element (c : Char) (j : Tree) (js : List Tree)
    (h : Spaced (elementTokens isFirst (j :: js) ++ us) cs) :
    ∃ left, skipOpen (c :: text) (!isFirst, .list :: outer) cs =
        (skipStart (.list :: outer) >>= skipOpen text) left ∧
      Spaced (j.tokens ++ (elementTokens false js ++ us)) left := by
  cases isFirst with
  | true =>
    have first : Spaced (j.tokens ++ (elementTokens false js ++ us)) cs := by
      simpa [elementTokens, Tree.itemsTokens] using h
    obtain ⟨t, ts, cons, open_, -⟩ := j.tokens_cons
    rw [cons] at first ⊢
    obtain ⟨rest, peeked, spaced⟩ := peek_run first
    refine ⟨_, ?_, spaced.here⟩
    rw [skipOpen, bind_ok peeked]
    simp [Bracket.closing, open_]
  | false =>
    have comma : Spaced (.mark .comma :: (j.tokens ++ (elementTokens false js ++ us))) cs := by
      simpa [elementTokens, Tree.moreItems] using h
    obtain ⟨rest, peeked, spaced⟩ := peek_mark comma
    refine ⟨rest, ?_, spaced⟩
    rw [skipOpen, bind_ok peeked]
    simp [Bracket.closing, Mark.char]

theorem skipKey_run (k : Literal) (h : Spaced (.string k :: .mark .colon :: us) cs) :
    Arrives (skipKey cs) us (some ()) := by
  obtain ⟨rest, peeked, spaced⟩ := peek_string h
  obtain ⟨left, run, spaced⟩ := colon_run spaced
  refine ⟨left, ?_, spaced⟩
  rw [skipKey, bind_ok peeked]
  simp only [drop_bind_run, List.tail_cons]
  rw [bind_ok (show skipString _ = _ from skipString_run k rest), run]

theorem skipOpen_member (c : Char) (k : Literal) (j : Tree) (ms : List (Literal × Tree))
    (h : Spaced (memberTokens isFirst ((k, j) :: ms) ++ us) cs) :
    ∃ left, skipOpen (c :: text) (!isFirst, .map :: outer) cs =
        (skipStart (.map :: outer) >>= skipOpen text) left ∧
      Spaced (j.tokens ++ (memberTokens false ms ++ us)) left := by
  cases isFirst with
  | true =>
    have first : Spaced (.string k :: .mark .colon ::
        (j.tokens ++ (memberTokens false ms ++ us))) cs := by
      simpa [memberTokens, Tree.membersTokens] using h
    obtain ⟨rest, peeked, spaced⟩ := peek_string first
    obtain ⟨left, run, spaced⟩ := skipKey_run k (spaced.here (t := .string k))
    refine ⟨left, ?_, spaced⟩
    have run : skipKey ('"' :: (k.chars ++ '"' :: rest)) = .ok ((), left) := by
      simpa [Token.chars] using run
    rw [skipOpen, bind_ok peeked]
    simp [Bracket.closing, bind_ok run]
  | false =>
    have comma : Spaced (.mark .comma :: .string k :: .mark .colon ::
        (j.tokens ++ (memberTokens false ms ++ us))) cs := by
      simpa [memberTokens, Tree.moreMembers] using h
    obtain ⟨rest, peeked, spaced⟩ := peek_mark comma
    obtain ⟨left, run, spaced⟩ := skipKey_run k spaced
    refine ⟨left, ?_, spaced⟩
    rw [skipOpen, bind_ok peeked]
    simp [Bracket.closing, Mark.char, bind_ok run]

theorem skipOpen_elements (outer : List Bracket) (text : List Char) (isFirst : Bool)
    (js : List Tree) (passes : ∀ j ∈ js, Passes j)
    (h : Spaced (elementTokens isFirst js ++ .mark .closeArray :: us) cs)
    (enough : (elementTokens isFirst js ++ .mark .closeArray :: us).length ≤ text.length) :
    ∃ text' left, skipOpen text (!isFirst, .list :: outer) cs = skipOpen text' (true, outer) left ∧
      Spaced us left ∧ us.length ≤ text'.length := by
  induction js generalizing isFirst text cs with
  | nil =>
    have closes : elementTokens isFirst [] = [] := by cases isFirst <;> rfl
    rw [closes] at h enough
    exact skipOpen_close rfl _ h enough
  | cons j js ih =>
    cases text with
    | nil => simp at enough
    | cons c text =>
      obtain ⟨left, run, spaced⟩ := skipOpen_element c j js h
      have fewer : (j.tokens ++ (elementTokens false js ++ .mark .closeArray :: us)).length ≤
          text.length + 1 := by
        cases isFirst <;>
          simp [elementTokens, Tree.itemsTokens, Tree.moreItems] at enough ⊢ <;> omega
      obtain ⟨text', left', run', spaced', enough'⟩ := passes j (by simp) (.list :: outer) _ left
        text (elementTokens_stops js) spaced fewer
      obtain ⟨text'', left'', run'', rest⟩ :=
        ih text' false (fun j' mem => passes j' (by simp [mem])) spaced' enough'
      exact ⟨text'', left'', run.trans (run'.trans run''), rest⟩

theorem skipOpen_members (outer : List Bracket) (text : List Char) (isFirst : Bool)
    (ms : List (Literal × Tree)) (passes : ∀ m ∈ ms, Passes m.2)
    (h : Spaced (memberTokens isFirst ms ++ .mark .closeObject :: us) cs)
    (enough : (memberTokens isFirst ms ++ .mark .closeObject :: us).length ≤ text.length) :
    ∃ text' left, skipOpen text (!isFirst, .map :: outer) cs = skipOpen text' (true, outer) left ∧
      Spaced us left ∧ us.length ≤ text'.length := by
  induction ms generalizing isFirst text cs with
  | nil =>
    have closes : memberTokens isFirst [] = [] := by cases isFirst <;> rfl
    rw [closes] at h enough
    exact skipOpen_close rfl _ h enough
  | cons m ms ih =>
    cases text with
    | nil => simp at enough
    | cons c text =>
      obtain ⟨left, run, spaced⟩ := skipOpen_member c m.1 m.2 ms h
      have fewer : (m.2.tokens ++ (memberTokens false ms ++ .mark .closeObject :: us)).length ≤
          text.length + 1 := by
        cases isFirst <;>
          simp [memberTokens, Tree.membersTokens, Tree.moreMembers] at enough ⊢ <;> omega
      obtain ⟨text', left', run', spaced', enough'⟩ := passes m (by simp) (.map :: outer) _ left
        text (memberTokens_stops ms) spaced fewer
      obtain ⟨text'', left'', run'', rest⟩ :=
        ih text' false (fun m' mem => passes m' (by simp [mem])) spaced' enough'
      exact ⟨text'', left'', run.trans (run'.trans run''), rest⟩

theorem skipStart_scalar (j : Tree) (scalar : j.isScalar = true) (stops : Stops us)
    (h : Spaced (j.tokens ++ us) cs) (outer : List Bracket) :
    Arrives (skipStart outer cs) us (some (true, outer)) := by
  obtain ⟨c, rest, peeked, noList, noMap, -, left, run, spaced⟩ := dispatch_scalar j scalar stops h
  refine ⟨left, ?_, spaced⟩
  rw [skipStart, bind_ok peeked]
  simp [bind_ok run]

theorem skipStart_array (js : List Tree) (h : Spaced ((Tree.array js).tokens ++ us) cs)
    (outer : List Bracket) :
    Arrives (skipStart outer cs) (elementTokens true js ++ .mark .closeArray :: us)
      (some (false, .list :: outer)) := by
  obtain ⟨rest, peeked, spaced⟩ := array_tokens js h
  refine ⟨rest, ?_, spaced⟩
  rw [skipStart, bind_ok peeked]
  rfl

theorem skipStart_object (ms : List (Literal × Tree))
    (h : Spaced ((Tree.object ms).tokens ++ us) cs) (outer : List Bracket) :
    Arrives (skipStart outer cs) (memberTokens true ms ++ .mark .closeObject :: us)
      (some (false, .map :: outer)) := by
  obtain ⟨rest, peeked, spaced⟩ := object_tokens ms h
  refine ⟨rest, ?_, spaced⟩
  rw [skipStart, bind_ok peeked]
  rfl

-- Only the steps of `skipOpen` are counted, so the brackets around a value do not matter to it.
theorem passes (j : Tree) : Passes j := by
  induction j using Tree.induct with
  | scalar j scalar =>
    intro outer us cs text stops h enough
    obtain ⟨left, run, spaced⟩ := skipStart_scalar j scalar stops h outer
    obtain ⟨t, ts, cons, -⟩ := j.tokens_cons
    refine ⟨text, left, bind_ok run, spaced, ?_⟩
    simp only [cons, List.length_append, List.length_cons] at enough
    omega
  | array js ih =>
    intro outer us cs text stops h enough
    obtain ⟨rest, run, spaced⟩ := skipStart_array js h outer
    obtain ⟨text', left, run', rest⟩ := skipOpen_elements outer text true js ih spaced
      (by simpa [Tree.tokens, elementTokens] using enough)
    exact ⟨text', left, (bind_ok run).trans run', rest⟩
  | object ms ih =>
    intro outer us cs text stops h enough
    obtain ⟨rest, run, spaced⟩ := skipStart_object ms h outer
    obtain ⟨text', left, run', rest⟩ := skipOpen_members outer text true ms ih spaced
      (by simpa [Tree.tokens, memberTokens] using enough)
    exact ⟨text', left, (bind_ok run).trans run', rest⟩

theorem skip_reads (j : Tree) : Reads skip j.tokens (some ()) := by
  intro us cs stops h
  cases j with
  | array js =>
    obtain ⟨rest, run, spaced⟩ := skipStart_array js h []
    obtain ⟨text, left, run', spaced, -⟩ :=
      skipOpen_elements [] rest true js (fun j _ => passes j) spaced spaced.length_le
    refine ⟨left, ?_, spaced⟩
    rw [skip, bind_ok run]
    simpa [skipOpen] using run'
  | object ms =>
    obtain ⟨rest, run, spaced⟩ := skipStart_object ms h []
    obtain ⟨text, left, run', spaced, -⟩ :=
      skipOpen_members [] rest true ms (fun m _ => passes m.2) spaced spaced.length_le
    refine ⟨left, ?_, spaced⟩
    rw [skip, bind_ok run]
    simpa [skipOpen] using run'
  | _ =>
    obtain ⟨left, run, spaced⟩ := skipStart_scalar _ rfl stops h []
    refine ⟨left, ?_, spaced⟩
    rw [skip, bind_ok run]
    simp [skipOpen]

/-! Shapes. -/

theorem bind_failMismatch (x : Reader α) (reason : α → Mismatch) (cs : List Char) :
    ∃ e, (x >>= fun a => (failMismatch (reason a) : Reader β)) cs = .error e := by
  cases h : x cs with
  | error e => exact ⟨e, bind_error h⟩
  | ok p => exact ⟨_, bind_ok h⟩

theorem misplaced_fails (expected : String) (cs : List Char) :
    Arrives ((misplaced expected : Reader α) cs) us none := by
  refine Arrives.placed ?_
  have peeked : peek cs = .ok ((skipGaps cs).head?, skipGaps cs) := rfl
  cases head : (skipGaps cs).head? with
  | none =>
    rw [head] at peeked
    exact ⟨_, bind_ok peeked⟩
  | some c =>
    rw [head] at peeked
    obtain ⟨e, run⟩ := bind_failMismatch (dispatch c (pure (.array [])) (pure (.object [])))
      (fun j => .invalidType j.label expected) (skipGaps cs)
    exact ⟨e, (bind_ok peeked).trans run⟩

theorem scalar_reads (shape : Shape α) (noArray : ∃ reason, shape (.array []) = .error reason)
    (noObject : ∃ reason, shape (.object []) = .error reason) (j : Tree) :
    Reads (scalar shape) j.tokens
      (if j.isScalar then j.value?.bind fun v => (shape v).toOption else none) := by
  intro us cs stops h
  refine Arrives.placed ?_
  cases j with
  | array js =>
    obtain ⟨rest, peeked, -⟩ := array_tokens js h
    obtain ⟨reason, refused⟩ := noArray
    rw [bind_ok peeked]
    exact ⟨_, show ofMismatch (shape (.array [])) _ = _ by rw [refused]; rfl⟩
  | object ms =>
    obtain ⟨rest, peeked, -⟩ := object_tokens ms h
    obtain ⟨reason, refused⟩ := noObject
    rw [bind_ok peeked]
    exact ⟨_, show ofMismatch (shape (.object [])) _ = _ by rw [refused]; rfl⟩
  | _ =>
    obtain ⟨c, rest, peeked, -, -, read, -⟩ := dispatch_scalar _ rfl stops h
    rw [bind_ok peeked]
    exact (read _ _).bind fun v _ spaced => ofMismatch_arrives (shape v) spaced

theorem enclosed_arrives {close : Reader Unit} {body : Nat → Reader α} {d : Nat} {m : Mark}
    (c : Char) (closes : ∀ left, Spaced (.mark m :: us) left → Arrives (close left) us (some ()))
    (h : Arrives (body d cs) (.mark m :: us) answer) :
    Arrives (enclosed (d + 1) close body (c :: cs)) us answer := by
  rw [enclosed, drop_bind_run, List.tail_cons]
  refine Arrives.congr (Arrives.bind (h.placing _) fun a left spaced =>
    (closes left spaced).bind fun _ _ spaced => .pure a spaced) ?_
  cases answer <;> rfl

theorem list_reads {item : Nat → Reader α} {d : Nat} {f : Tree → Option α}
    (reads : ∀ j, Reads (item d) j.tokens (f j)) (j : Tree) :
    Reads (list item (d + 1)) j.tokens (j.items?.bind (·.mapM f)) := by
  intro us cs stops h
  refine Arrives.placed ?_
  cases j with
  | array js =>
    obtain ⟨rest, peeked, spaced⟩ := array_tokens js h
    rw [bind_ok peeked]
    have items := (collect_elements js (fun j _ => reads j) spaced).bind fun items _ spaced =>
      .pure items.reverse spaced
    refine (enclosed_arrives '[' (fun _ => closeArray_run) items).congr ?_
    cases collected : js.mapM f <;> simp [Tree.items?, collected]
  | object ms =>
    obtain ⟨rest, peeked, -⟩ := object_tokens ms h
    rw [bind_ok peeked]
    exact misplaced_fails _ _
  | _ =>
    obtain ⟨c, rest, peeked, noList, -⟩ := dispatch_scalar _ rfl stops h
    rw [bind_ok peeked]
    have other : some c = some '[' → False := fun same => noList (Option.some.inj same)
    simpa [Tree.items?] using misplaced_fails "a sequence" rest

end

theorem run_of_arrives {T : Tree}
    (arrives : ∀ cs, Spaced (T.tokens ++ []) cs → Arrives (x cs) [] answer) {text : String}
    (h : T.Written text) : (x.run text).toOption = answer := by
  have whole : Spaced (T.tokens ++ []) text.toList := (List.append_nil _).symm ▸ h
  have finished (left : List Char) (spaced : Spaced [] left) :
      finish left = .ok ((), []) := by
    have peeked : peek left = .ok (none, []) := by rw [peek, spaced.skipGaps_nil]; rfl
    rw [finish, bind_ok peeked]
    rfl
  have read := arrives text.toList whole
  rw [Reader.run]
  cases answer with
  | none =>
    obtain ⟨e, run⟩ := read
    rw [bind_error run]
    rfl
  | some a =>
    obtain ⟨left, run, spaced⟩ := read
    rw [bind_ok run, bind_ok (finished left spaced)]
    rfl

end

end Reader

end TypeLayout.Json
