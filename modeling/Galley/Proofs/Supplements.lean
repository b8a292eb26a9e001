import Galley.Proofs.ModelWrites
import Galley.Proofs.SessionCalls

/-!
What supplements hide.

A supplement is made of pairs, and on every way the last value of a key stays: sorting the pairs
first keeps the order of those with the same key (`Fields.filter_mergeSort`), so that it leads to
the same fields as inserting them one by one (`Fields.collect_eq_ofPairs`). Writes in place leave
what those store that succeed (`Supplement.after_eq`). Of a supplement and a model templates see
the value of the supplement under each of its keys and that of the model under the others
(`Supplement.find?_seenFields`); the keys of both are the hidden ones
(`Supplement.mem_hidden_iff`). All that rendering makes of the two is what is seen of them
(`Supplement.run_render`), and the session stays as it is. `Supplement.hides_whole_keys` puts
this together.
-/

namespace Galley

namespace Fields

variable {β : Type} {k : String} {v : β} {pairs : List (String × β)}

/-! ### Pairs that are sorted first -/

theorem keys_lastOfEach_sublist (pairs : List (String × β)) :
    (keys (lastOfEach pairs)).Sublist (keys pairs) := by
  fun_induction lastOfEach pairs with
  | case1 => exact .slnil
  | case2 e => exact .refl _
  | case3 e f rest hkey ih => exact ih.cons _
  | case4 e f rest hkey ih => exact ih.cons_cons _

/-- Of pairs in the order of their keys the last one with each key stays. -/
theorem sorted_lastOfEach (h : (keys pairs).Pairwise (· ≤ ·)) : Sorted (lastOfEach pairs) := by
  fun_induction lastOfEach pairs with
  | case1 => exact sorted_nil
  | case2 e => exact List.pairwise_singleton _ _
  | case3 e f rest hkey ih => exact ih (List.pairwise_cons.mp h).2
  | case4 e f rest hkey ih =>
      obtain ⟨hle, hrest⟩ := List.pairwise_cons.mp h
      refine sorted_cons_iff.mpr ⟨?_, ih hrest⟩
      intro j hj
      have hfirst : e.1 < f.1 := lt_of_le_of_ne (hle f.1 List.mem_cons_self) hkey
      rcases List.mem_cons.mp ((keys_lastOfEach_sublist _).subset hj) with rfl | hj
      · exact hfirst
      · exact hfirst.trans_le ((List.pairwise_cons.mp hrest).1 j hj)

theorem find?_lastOfEach (h : (keys pairs).Pairwise (· ≤ ·)) :
    find? k (lastOfEach pairs) = find? k pairs.reverse := by
  fun_induction lastOfEach pairs with
  | case1 => rfl
  | case2 e => rfl
  | case3 e f rest hkey ih =>
      rw [ih (List.pairwise_cons.mp h).2, List.reverse_cons (a := e), find?_append]
      by_cases hk : e.1 = k
      · -- The pair behind it has the same key.
        have hfound : find? k (f :: rest).reverse ≠ none := by
          rw [ne_eq, find?_reverse_eq_none_iff, not_not, ← hk, hkey]
          exact List.mem_cons_self
        obtain ⟨v, hv⟩ := Option.ne_none_iff_exists'.mp hfound
        rw [hv, Option.some_or]
      · rw [find?, if_neg hk, find?_nil, Option.or_none]
  | case4 e f rest hkey ih =>
      obtain ⟨hle, hrest⟩ := List.pairwise_cons.mp h
      rw [find?, ih hrest, List.reverse_cons (a := e), find?_append]
      by_cases hk : e.1 = k
      · -- A greater key comes next, and none behind it is smaller.
        have hnone : find? k (f :: rest).reverse = none := by
          rw [find?_reverse_eq_none_iff, ← hk]
          intro hmem
          have hfirst : e.1 < f.1 := lt_of_le_of_ne (hle f.1 List.mem_cons_self) hkey
          rcases List.mem_cons.mp hmem with heq | hmem
          · exact hkey heq
          · exact absurd ((List.pairwise_cons.mp hrest).1 _ hmem) hfirst.not_ge
        rw [if_pos hk, hnone, Option.none_or, find?, if_pos hk]
      · rw [if_neg hk, find?, if_neg hk, find?_nil, Option.or_none]

theorem keysLe_trans (a b c : String × β) (hab : decide (a.1 ≤ b.1) = true)
    (hbc : decide (b.1 ≤ c.1) = true) : decide (a.1 ≤ c.1) = true :=
  decide_eq_true ((of_decide_eq_true hab).trans (of_decide_eq_true hbc))

theorem keysLe_total (a b : String × β) : (decide (a.1 ≤ b.1) || decide (b.1 ≤ a.1)) = true := by
  simpa using String.le_total a.1 b.1

theorem pairwise_keys_mergeSort (pairs : List (String × β)) :
    (keys (pairs.mergeSort fun e f => e.1 ≤ f.1)).Pairwise (· ≤ ·) := by
  rw [keys, List.pairwise_map]
  exact (List.pairwise_mergeSort keysLe_trans keysLe_total pairs).imp of_decide_eq_true

/-- Sorting keeps the order of pairs with the same key. -/
theorem filter_mergeSort (pairs : List (String × β)) (k : String) :
    (pairs.mergeSort fun e f => e.1 ≤ f.1).filter (·.1 = k) = pairs.filter (·.1 = k) := by
  let le : String × β → String × β → Bool := fun e f => e.1 ≤ f.1
  have hordered : (pairs.filter (·.1 = k)).Pairwise fun e f => le e f = true := by
    have hkey : ∀ e ∈ pairs.filter (·.1 = k), e.1 = k := fun e he => by
      simpa using List.of_mem_filter he
    apply List.pairwise_of_forall_mem_list
    intro e he f hf
    exact decide_eq_true ((hkey e he).trans (hkey f hf).symm).le
  have hsublist : (pairs.filter (·.1 = k)).Sublist (pairs.mergeSort le) :=
    List.sublist_mergeSort (keysLe_trans (β := β)) keysLe_total hordered List.filter_sublist
  have hfiltered := hsublist.filter (·.1 = k)
  rw [List.filter_filter] at hfiltered
  simp only [Bool.and_self] at hfiltered
  exact (hfiltered.eq_of_length ((List.mergeSort_perm pairs le).filter _).length_eq.symm).symm

theorem find?_reverse_filter (pairs : List (String × β)) (k : String) :
    find? k (pairs.filter (·.1 = k)).reverse = find? k pairs.reverse := by
  rw [← List.filter_reverse]
  have hfilter : find? k (pairs.reverse.filter fun e => decide (e.1 = k)) =
      if decide (k = k) then find? k pairs.reverse else none :=
    find?_filter_keys (· = k)
  simpa using hfilter

/-- Sorting pairs first leads to the fields that are inserted one by one. -/
theorem collect_eq_ofPairs (pairs : List (String × β)) : collect pairs = ofPairs pairs := by
  have hsorted := pairwise_keys_mergeSort pairs
  refine eq_of_find?_eq (sorted_lastOfEach hsorted) sorted_ofPairs fun k => ?_
  rw [collect, find?_lastOfEach hsorted, find?_ofPairs, ← find?_reverse_filter, filter_mergeSort,
    find?_reverse_filter]

/-- The value of the last pair with a key. -/
theorem find?_reverse_eq_some_iff : find? k pairs.reverse = some v ↔
    ∃ front back, pairs = front ++ (k, v) :: back ∧ k ∉ keys back := by
  induction pairs with
  | nil => simp
  | cons e pairs ih =>
      rw [List.reverse_cons, find?_append]
      cases hfound : find? k pairs.reverse with
      | some w =>
          have hmem : k ∈ keys pairs := by
            rw [← not_not (a := k ∈ keys pairs), ← find?_reverse_eq_none_iff, hfound]
            simp
          rw [Option.some_or, ← hfound, ih]
          constructor
          · rintro ⟨front, back, rfl, hback⟩
            exact ⟨e :: front, back, rfl, hback⟩
          · rintro ⟨front, back, heq, hback⟩
            cases front with
            | nil => exact absurd ((List.cons.inj heq).2 ▸ hmem) hback
            | cons f front => exact ⟨front, back, (List.cons.inj heq).2, hback⟩
      | none =>
          have hnew := find?_reverse_eq_none_iff.mp hfound
          rw [Option.none_or]
          constructor
          · intro h
            obtain rfl := List.mem_singleton.mp (mem_of_find? h)
            exact ⟨[], pairs, rfl, hnew⟩
          · rintro ⟨front, back, heq, hback⟩
            cases front with
            | nil =>
                obtain rfl := (List.cons.inj heq).1
                simp [find?]
            | cons f front =>
                obtain rfl := (List.cons.inj heq).2
                simp [keys] at hnew

end Fields

namespace Supplement

/-! ### Making a supplement -/

section Making

theorem foldl_insert (pairs : List (String × Json)) (s : Supplement) :
    pairs.foldl (fun s e => s.insert e.1 e.2) s = ⟨Fields.insertAll s.fields pairs⟩ := by
  induction pairs generalizing s with
  | nil => rfl
  | cons e pairs ih => exact ih _

/-- Putting values one by one in place ends like putting them one by one. -/
theorem left_replace (pairs : List (String × Json)) (s : Supplement) :
    ((pairs.mapM fun e => replace e.1 e.2).run s).2 =
      pairs.foldl (fun s e => s.insert e.1 e.2) s := by
  induction pairs generalizing s with
  | nil => rfl
  | cons e pairs ih =>
      rw [List.mapM_cons, List.foldl_cons, ← ih]
      rfl

/-- A supplement of pairs has the value of the last pair with a key. -/
theorem get?_ofPairs_eq_some_iff {pairs : List (String × Json)} {key : String} {v : Json} :
    (ofPairs pairs).get? key = some v ↔
      ∃ front back, pairs = front ++ (key, v) :: back ∧ key ∉ Fields.keys back := by
  rw [← Fields.find?_reverse_eq_some_iff, ← Fields.find?_ofPairs]
  rfl

variable [CallerTypes] {w : Model.Write} {s : Supplement}

/-- A write to a supplement in place. -/
def change : Model.Write → ExceptT PlainFault (StateM Supplement) Unit
  | .value k key v => store k key v
  | .plain key v => discard (replace key v)

/-- The supplement after writes, whether they succeed or fail. -/
def after (ws : List Model.Write) (s : Supplement) : Supplement :=
  ws.foldl (fun s w => ((change w).run s).2) s

/-- A write that succeeds puts the plain form of its value. -/
theorem run_change_of_plain {e : Entry} (h : w.entry = .ok e) (s : Supplement) :
    (change w).run s = (.ok (), s.insert w.key e.json) := by
  obtain ⟨j, hj, rfl⟩ := Model.Write.entry_eq_ok_iff.mp h
  cases w with
  | value k key v =>
      rw [change, store, show k.toJson v = .ok j from hj]
      rfl
  | plain key v =>
      cases hj
      rfl

/-- A write that fails leaves the supplement as it is. -/
theorem run_change_of_fault {f : PlainFault} (h : w.entry = .error f) (s : Supplement) :
    (change w).run s = (.error f, s) := by
  cases w with
  | value k key v =>
      have hv : k.toJson v = .error f := by
        change Entry.ofValue k v = .error f at h
        rw [Entry.ofValue] at h
        cases hj : k.toJson v with
        | ok j =>
            rw [hj] at h
            cases h
        | error g =>
            rw [hj] at h
            cases h
            rfl
      rw [change, store, hv]
      rfl
  | plain key v => cases h

/-- The plain values that the writes store that succeed, under their keys. -/
def plainOf (ws : List Model.Write) : List (String × Json) :=
  (Model.entriesOf ws).map fun e => (e.1, e.2.json)

/-- Writes leave what those store that succeed. -/
theorem after_eq (ws : List Model.Write) (s : Supplement) :
    after ws s = ⟨Fields.insertAll s.fields (plainOf ws)⟩ := by
  induction ws generalizing s with
  | nil => rfl
  | cons w ws ih =>
      rw [after, List.foldl_cons, ← after, ih, plainOf, plainOf]
      cases hw : w.entry with
      | error f =>
          have hentries : Model.entriesOf (w :: ws) = Model.entriesOf ws :=
            List.filterMap_cons_none (by rw [hw]; rfl)
          rw [run_change_of_fault hw, hentries]
      | ok e =>
          have hentries : Model.entriesOf (w :: ws) = (w.key, e) :: Model.entriesOf ws :=
            List.filterMap_cons_some (by rw [hw]; rfl)
          rw [run_change_of_plain hw, hentries]
          rfl

end Making

/-! ### Laying a supplement over a model -/

section Layers

variable [CallerTypes] {s : Supplement} {m : Model} {key : String}

theorem keys_toFields (m : Model) : Fields.keys m.toFields = m.keys := by
  rw [Fields.keys, Model.toFields, List.map_map]
  rfl

/-- The fields that templates see. -/
def seenFields (s : Supplement) (m : Model) : List (String × Json) :=
  Fields.insertAll m.toFields s.fields

/-- Templates see the value of the supplement under each of its keys, and that of the model under
the others. -/
theorem find?_seenFields (hs : Fields.Sorted s.fields) (m : Model) (key : String) :
    Fields.find? key (s.seenFields m) = (s.get? key).or (m.value? key) := by
  have hmodel : Fields.find? key m.toFields = m.value? key := Fields.find?_map Entry.json
  rw [seenFields, Fields.find?_insertAll, Fields.find?_reverse (Fields.nodup_keys hs), hmodel]
  rfl

theorem sorted_seenFields (hm : Fields.Sorted m.entries) (s : Supplement) :
    Fields.Sorted (s.seenFields m) := by
  refine Fields.sorted_insertAll ?_
  rw [Fields.Sorted, keys_toFields]
  exact hm

theorem mem_keys_seenFields (hs : Fields.Sorted s.fields) :
    key ∈ Fields.keys (s.seenFields m) ↔ key ∈ s.keys ∨ key ∈ m.keys := by
  have hvalue : m.value? key = none ↔ key ∉ m.keys := by
    rw [← keys_toFields, ← Fields.find?_eq_none_iff]
    exact iff_of_eq (congrArg (· = none) (Fields.find?_map Entry.json).symm)
  rw [← not_iff_not, ← Fields.find?_eq_none_iff, find?_seenFields hs, Option.or_eq_none_iff,
    hvalue, not_or]
  exact and_congr_left fun _ => Fields.find?_eq_none_iff

theorem sorted_hidden (hs : Fields.Sorted s.fields) (m : Model) :
    (s.hidden m).Pairwise (· < ·) :=
  List.Pairwise.filter _ hs

theorem mem_hidden_iff : key ∈ s.hidden m ↔ key ∈ s.keys ∧ key ∈ m.keys := by
  rw [hidden, List.mem_filter, Model.contains, Fields.contains_iff]
  rfl

theorem value_layOver (s : Supplement) (m : Model) :
    (s.layOver m).value = .object (s.seenFields m) := by
  rw [layOver]
  cases s.hidden m <;> rfl

theorem lines_layOver (s : Supplement) (m : Model) : (s.layOver m).lines =
    if s.hidden m = [] then [] else [⟨.debug, hiddenText (s.hidden m)⟩] := by
  rw [layOver]
  cases s.hidden m <;> rfl

theorem empty_layOver (m : Model) : (empty.layOver m) = pure m.toJson :=
  rfl

end Layers

/-! ### Rendering -/

section Rendering

open Session

variable [CallerTypes] {session : Session} {fs : Files} {m : Model} {path : FilePath}
  {text : String}

/-- Whether a call renders the template, to get the output or to check it. -/
def renders : Call → Bool
  | .render _ | .checkSame _ _ | .checkContains _ _ => true
  | _ => false

/-- Rendering leaves the session and the files as they are. -/
theorem after_of_renders {calls : List Call} (h : ∀ c ∈ calls, renders c = true) :
    session.after fs calls = (session, fs) := by
  induction calls with
  | nil => rfl
  | cons c calls ih =>
      obtain ⟨hc, hcalls⟩ := List.forall_mem_cons.mp h
      rw [Session.after, List.foldl_cons]
      cases c with
      | render supply => exact ih hcalls
      | checkSame path supply => exact ih hcalls
      | checkContains fragment supply => exact ih hcalls
      | load paths => cases hc
      | loadDirectory directory pattern => cases hc
      | loadText text => cases hc
      | selectTemplate path => cases hc

/-- The template is rendered against the supplement that is laid over the model. -/
theorem run_render (htemplate : session.template = some path) (hmodel : session.model = .ok m)
    (htext : fs.readText path = .ok text) (supply : Model → Supplement) :
    (session.render fs supply).run =
      (supply m).layOver m >>= session.renderer.render path.shown text := by
  have hread {α β : Type} (a : α) (f : α → Check β) : Check.ofExcept (.ok a) >>= f = f a := rfl
  rw [Session.render, htemplate]
  simp only [hmodel, Check.read, htext, Except.mapError, hread]
  rw [ExceptT.run_bind, ExceptT.run_liftM, bind_map_left]
  rfl

end Rendering

/-- A supplement hides whole keys of a model and nothing else.

Pairs make the same supplement one by one, in place or not, as a map or sorted first, and it has
the value of the last pair with each key. Writes in place leave what those store that succeed; a
write that fails leaves the supplement as it is. Of a model with sorted keys, as all models are
that are made of writes, and a supplement, templates see the keys of both, each once: the value
of the supplement where it has one, and otherwise the plain value of the model. The keys of both
are told in order, by one line of the log if there are any. However often a session renders its
template with supplements, it is as it was, and against the empty supplement the template is
rendered as against the model alone. -/
theorem hides_whole_keys [CallerTypes] :
    (∀ pairs : List (String × Json),
      let s := ofPairs pairs
      pairs.foldl (fun s e => s.insert e.1 e.2) empty = s ∧
      ((pairs.mapM fun e => replace e.1 e.2).run empty).2 = s ∧
      collect pairs = s ∧
      s.keys.Pairwise (· < ·) ∧
      ∀ key v, s.get? key = some v ↔
        ∃ front back, pairs = front ++ (key, v) :: back ∧ key ∉ Fields.keys back) ∧
    (∀ (ws : List Model.Write) (w : Model.Write) (s : Supplement),
      after ws empty = ofPairs (plainOf ws) ∧
      (∀ e, w.entry = .ok e → (change w).run s = (.ok (), s.insert w.key e.json)) ∧
      ∀ f, w.entry = .error f → (change w).run s = (.error f, s)) ∧
    (∀ ws, Fields.Sorted (Model.writeAll ws .empty).value.entries) ∧
    (∀ (m : Model) (pairs : List (String × Json)), Fields.Sorted m.entries →
      let s := ofPairs pairs
      (∃ fields, (s.layOver m).value = .object fields ∧
        (Fields.keys fields).Pairwise (· < ·) ∧
        (∀ key, key ∈ Fields.keys fields ↔ key ∈ s.keys ∨ key ∈ m.keys) ∧
        ∀ key, Fields.find? key fields =
          match s.get? key with
          | some v => some v
          | none => m.value? key) ∧
      (s.hidden m).Pairwise (· < ·) ∧
      (∀ key, key ∈ s.hidden m ↔ key ∈ s.keys ∧ key ∈ m.keys) ∧
      (s.layOver m).lines =
        if s.hidden m = [] then [] else [⟨.debug, hiddenText (s.hidden m)⟩]) ∧
    ∀ (session : Session) fs calls, (∀ c ∈ calls, renders c = true) →
      let now := session.after fs calls
      now = (session, fs) ∧
      ∀ m path text, session.model = .ok m → session.template = some path →
        fs.readText path = .ok text →
        (∀ supply, (now.1.render now.2 supply).run =
          (supply m).layOver m >>= session.renderer.render path.shown text) ∧
        (now.1.render now.2 fun _ => empty).run =
          session.renderer.render path.shown text m.toJson := by
  refine ⟨?_, ?_, ?_, ?_, ?_⟩
  · intro pairs
    have hfold : pairs.foldl (fun s e => s.insert e.1 e.2) empty = ofPairs pairs :=
      foldl_insert pairs empty
    refine ⟨hfold, (left_replace pairs empty).trans hfold, ?_, Fields.sorted_ofPairs,
      fun key v => get?_ofPairs_eq_some_iff⟩
    rw [collect, Fields.collect_eq_ofPairs, ofPairs]
  · intro ws w s
    exact ⟨after_eq ws empty, fun e he => run_change_of_plain he s,
      fun f hf => run_change_of_fault hf s⟩
  · exact Model.sorted_writeAll
  · intro m pairs hm s
    have hs : Fields.Sorted s.fields := Fields.sorted_ofPairs
    refine ⟨⟨s.seenFields m, value_layOver s m, sorted_seenFields hm s,
      fun key => mem_keys_seenFields hs, fun key => ?_⟩, sorted_hidden hs m,
      fun key => mem_hidden_iff, lines_layOver s m⟩
    rw [find?_seenFields hs]
    cases s.get? key <;> rfl
  · intro session fs calls hcalls now
    have hnow : now = (session, fs) := after_of_renders hcalls
    rw [hnow]
    refine ⟨rfl, ?_⟩
    intro m path text hmodel htemplate htext
    have hrun := run_render htemplate hmodel htext
    refine ⟨hrun, ?_⟩
    rw [hrun, empty_layOver, pure_bind]

/-- A key that is put twice and that the model has, a value that has no plain form, and a session
that has rendered with them. -/
theorem hides_whole_keys_repeated_key :
    let pairs : List (String × Json) :=
      [("mode", .object [("deep", .null)]), ("zone", .null), ("mode", .text "once")]
    let writes : List Model.Write :=
      [.plain "mode" (.text "model"), .plain "size" (.bool true)]
    let m := (Model.writeAll writes .empty).value
    let bad : Model.Write := .value .yaml "mode" (.map [(.seq [], .null)])
    let fs : Files := { tree := .dir [("t.hbs", .file (.text "x"))] }
    let ready := ((Session.new []).after fs [.load [], .selectTemplate (.named "t.hbs")]).1
    let now := ready.after fs [.render fun _ => ofPairs pairs]
    collect pairs = ofPairs pairs ∧ Fields.Sorted m.entries ∧ (ofPairs pairs).hidden m = ["mode"] ∧
      ((ofPairs pairs).layOver m).lines = [⟨.debug, hiddenText ["mode"]⟩] ∧
      bad.entry = .error .keyNotText ∧
      (change bad).run (ofPairs pairs) = (.error .keyNotText, ofPairs pairs) ∧
      ready.model = .ok .empty ∧ ready.template = some (.named "t.hbs") ∧
      fs.readText (.named "t.hbs") = .ok "x" ∧ now = (ready, fs) ∧
      (now.1.render now.2 fun _ => empty).run =
        ready.renderer.render "t.hbs" "x" Model.empty.toJson := by
  intro pairs writes m bad fs ready now
  obtain ⟨hmade, hwrites, hmodels, hseen, hsessions⟩ := hides_whole_keys
  have hsorted : Fields.Sorted m.entries := hmodels _
  have hhidden : (ofPairs pairs).hidden m = ["mode"] := by decide +kernel
  have hbad : bad.entry = .error .keyNotText := rfl
  have hmodel : ready.model = .ok .empty := rfl
  have htemplate : ready.template = some (.named "t.hbs") := rfl
  have htext : fs.readText (.named "t.hbs") = .ok "x" := rfl
  obtain ⟨hnow, hrender⟩ := hsessions ready fs [.render fun _ => ofPairs pairs] (by simp [renders])
  refine ⟨(hmade pairs).2.2.1, hsorted, hhidden, ?_, hbad, (hwrites [] bad _).2.2 _ hbad, hmodel,
    htemplate, htext, hnow, (hrender _ _ _ hmodel htemplate htext).2⟩
  rw [(hseen m pairs hsorted).2.2.2, hhidden]
  rfl

end Supplement

end Galley
