import RegistryKeeper.Proofs.TurnEffects
import RegistryKeeper.Proofs.Versions
import RegistryKeeper.Proofs.WrittenDocuments

namespace RegistryKeeper

namespace Address

/-- The text is one segment of a path, and the same one when it is read there. -/
def isSegment (s : String) : Bool :=
  s ≠ "" && s.toList.all fun c => isPathChar c && c ≠ '/' && c ≠ '%'

/-- Both names are segments, and leave room for the rest of an address, which has 61 bytes at
most. -/
structure Admits (n m : String) : Prop where
  «namespace» : isSegment n = true
  name : isSegment m = true
  short : n.utf8ByteSize + m.utf8ByteSize + 61 ≤ limit

theorem isPath_append {l : List Char} (h : ∀ c ∈ l, isPathChar c = true) (r : List Char) :
    isPath (l ++ r) = isPath r := by
  induction l with
  | nil => rfl
  | cons c l ih =>
      obtain ⟨hc, hl⟩ := List.forall_mem_cons.1 h
      have hquery : c ≠ '?' := by
        rintro rfl
        exact absurd hc (by decide)
      have hfragment : c ≠ '#' := by
        rintro rfl
        exact absurd hc (by decide)
      simp [isPath, hquery, hfragment, hc, ih hl]

theorem size_append (pieces rest : List String) :
    size (pieces ++ rest) = size pieces + size rest := by
  induction pieces with
  | nil => simp [size]
  | cons piece pieces ih => simp [size, ih, Nat.add_assoc]

variable {n m : String}

theorem isSegment_iff :
    isSegment n = true ↔
      n ≠ "" ∧ ∀ c ∈ n.toList, isPathChar c = true ∧ c ≠ '/' ∧ c ≠ '%' := by
  simp [isSegment, and_assoc]

theorem isPathChar_of_isSegment (h : isSegment n = true) : ∀ c ∈ n.toList, isPathChar c = true :=
  fun c hc => ((isSegment_iff.1 h).2 c hc).1

end Address

namespace ManagedKind
open Address (isSegment isPathChar isPathChar_of_isSegment isPath_append size_append)
variable {n m : String}

theorem isPathChar_address (k : ManagedKind) (h : isSegment n = true) :
    ∀ c ∈ ((ResourceKind.managed k).address n).flatMap String.toList, isPathChar c = true := by
  have hfixed : ∀ s ∈ (ResourceKind.managed k).root ++
      ["/namespaces/", "/", (ResourceKind.managed k).plural],
      s.toList.all isPathChar = true := by
    cases k <;> decide
  intro c hc
  obtain ⟨s, hs, hc⟩ := List.mem_flatMap.1 hc
  by_cases hn : s = n
  · exact isPathChar_of_isSegment h c (hn ▸ hc)
  · refine List.all_eq_true.1 (hfixed s ?_) c hc
    simp only [ResourceKind.address, List.mem_append, List.mem_cons, hn, false_or] at hs ⊢
    exact hs

theorem size_address (k : ManagedKind) (n : String) :
    Address.size ((ResourceKind.managed k).address n) ≤ n.utf8ByteSize + 59 := by
  have hfixed : Address.size (ResourceKind.managed k).root +
      Address.size ["/namespaces/", "/", (ResourceKind.managed k).plural] ≤ 59 := by
    cases k <;> decide
  simp only [ResourceKind.address, size_append, Address.size] at hfixed ⊢
  omega

theorem fault?_address (k : ManagedKind) (h : Address.Admits n m) {rest : List String}
    (hsize : Address.size rest ≤ m.utf8ByteSize + 2)
    (hpath : Address.isPath (rest.flatMap String.toList) = true) :
    Address.fault? ((ResourceKind.managed k).address n ++ rest) = none := by
  have hroom := h.short
  have haddress := k.size_address n
  have hlength : ¬ Address.limit < Address.size ((ResourceKind.managed k).address n ++ rest) := by
    rw [size_append]
    omega
  rw [Address.fault?, if_neg hlength, List.flatMap_append,
    isPath_append (k.isPathChar_address h.namespace), hpath, if_pos rfl]

end ManagedKind

namespace Request
open Address (Admits isPath isPathChar isPath_append isPathChar_of_isSegment isSegment_iff)
variable {n m : String} (h : Admits n m) (k : ManagedKind)
include h

theorem fault?_named {r : Request} {query : List String} (htarget : r.target? = some m)
    (haddress : r.address = (ResourceKind.managed k).address n ++ "/" :: m :: query)
    (hsize : Address.size query ≤ 1) (hquery : isPath (query.flatMap String.toList) = true) :
    r.fault? = none := by
  have hnamed : r.target? ≠ some "" := by
    rw [htarget, ne_eq, Option.some_inj]
    exact (isSegment_iff.1 h.name).1
  rw [fault?, if_neg hnamed, haddress]
  refine k.fault?_address h ?_ ?_
  · have hslash : "/".utf8ByteSize = 1 := by decide
    simp only [Address.size]
    omega
  · have hslash : ∀ c ∈ "/".toList, isPathChar c = true := List.all_eq_true.1 (by decide)
    rw [List.flatMap_cons, List.flatMap_cons, isPath_append hslash,
      isPath_append (isPathChar_of_isSegment h.name), hquery]

theorem fault?_get : (get (.managed k) n m).fault? = none :=
  fault?_named h k rfl rfl (Nat.zero_le 1) rfl

theorem fault?_create (j : Json) : (create (.managed k) n j).fault? = none :=
  (if_neg (by simp [target?])).trans (k.fault?_address h (Nat.le_add_left _ _) rfl)

theorem fault?_replace (j : Json) : (replace (.managed k) n m j).fault? = none :=
  fault?_named h k rfl rfl (Nat.le_refl 1) rfl

theorem fault?_delete : (delete (.managed k) n m).fault? = none := fault?_replace h k .null

omit h in
theorem fault?_get_of_long (hname : m ≠ "")
    (hlong : Address.limit < n.utf8ByteSize + m.utf8ByteSize) :
    (get (.managed k) n m).fault? = some .tooLong := by
  have hnamed : (get (.managed k) n m).target? ≠ some "" := by
    rwa [target?, ne_eq, Option.some_inj]
  have hlength : Address.limit < Address.size (get (.managed k) n m).address := by
    simp only [address, ResourceKind.address, Address.size_append, Address.size]
    omega
  rw [fault?, if_neg hnamed, Address.fault?, if_pos hlength]

end Request

namespace Managed

theorem place_amend (k : ManagedKind) (live desired : Json) :
    place (amend k live desired) = place live := by
  have hnamespace : namespaceOf (amend k live desired) = namespaceOf live := by
    rw [namespaceOf, namespaceOf, Json.textAt?, Json.textAt?, at?_amend_metadata]
  rw [place, place, nameOf_amend, hnamespace]

end Managed

namespace Store
variable {κ κ' : Type}

structure InStep (s : Store κ) (t : Store κ') : Prop where
  versions : s.versions = t.versions
  addresses : s.addresses = t.addresses
  addressing : s.addressing = t.addressing

theorem InStep.addressed {s : Store κ} {t : Store κ'} (h : s.InStep t) (isService : Bool)
    (j : Json) : s.addressed isService j = t.addressed isService j := by
  simp only [Store.addressed, h.addresses, h.addressing]

variable [DecidableEq κ] [DecidableEq κ'] {s : Store κ} {t : Store κ'}

theorem InStep.fst_write (h : s.InStep t) (p : Place κ) (q : Place κ') (isService : Bool)
    (j : Json) : (s.write p isService j).1 = (t.write q isService j).1 := by
  rw [write_fst, write_fst, h.versions, h.addressed]

theorem InStep.write (h : s.InStep t) (p : Place κ) (q : Place κ') (isService : Bool) (j : Json) :
    (s.write p isService j).2.InStep (t.write q isService j).2 where
  versions := congrArg (· + 1) h.versions
  addresses := by
    simp only [Store.write, h.versions, h.addressed]
  addressing := h.addressing

theorem place_write (s : Store κ) (p : Place κ) (isService : Bool) (j : Json) :
    Managed.place (s.write p isService j).1 = Managed.place j := by
  have hnamespace : Managed.namespaceOf (s.write p isService j).1 = Managed.namespaceOf j :=
    (agreeOff_write s p isService j).textAt? (by decide)
  rw [Managed.place, Managed.place, nameOf_write, hnamespace]

end Store

def Call.entry (c : Call) : Entry := ⟨c.verb, c.kind, c.name⟩

def Request.recorded? : Request → Option Entry
  | .get (.managed k) _ m => some ⟨.get, k, m⟩
  | .create (.managed k) _ j => some ⟨.create, k, (Managed.nameOf j).getD ""⟩
  | .replace (.managed k) _ m _ => some ⟨.replace, k, m⟩
  | .delete (.managed k) _ m => some ⟨.delete, k, m⟩
  | _ => none

theorem Server.write_managed (s : Server) (k : ManagedKind) (n m : String) (j : Json) :
    s.write (.managed k) n m j =
      ((s.store.write ⟨.managed k, n, m⟩ (k = .service) j).1,
        { s with store := (s.store.write ⟨.managed k, n, m⟩ (k = .service) j).2 }) := by
  simp only [write, ResourceKind.managed.injEq]

theorem Server.answer_of_no_outages {s : Server} (h : s.outages = []) (r : Request) :
    answer r s = serve r { s with log := s.log ++ [r] } := by
  rw [answer, h]
  simp only [Outage.strike, ← h]

inductive Call.Sendable : Call → Prop where
  | get {k : ManagedKind} {n m : String} (h : (Request.get (.managed k) n m).fault? = none) :
      Sendable (.get k n m)
  | create {k : ManagedKind} {n m : String} {j : Json}
      (h : (Request.create (.managed k) n j).fault? = none)
      (hplace : Managed.place j = .ok (n, m)) (hj : Managed.Written k j) :
      Sendable (.create k n j)
  | replace {k : ManagedKind} {n m : String} {j : Json}
      (h : (Request.replace (.managed k) n m j).fault? = none)
      (hplace : Managed.place j = .ok (n, m)) (hj : Managed.Written k j) {v : String}
      (hv : Managed.versionOf j = some v) : Sendable (.replace k n j)
  | delete {k : ManagedKind} {n m : String} (h : (Request.delete (.managed k) n m).fault? = none) :
      Sendable (.delete k n m)

namespace LocalCluster

/-- The cluster and the server have drawn the same numbers and recorded the same calls, and store
the same objects of the five kinds, each at its own place and as it is read; neither is to fail. -/
structure Imitates (c : LocalCluster) (s : Server) : Prop where
  noFaults : c.faults = .empty
  noOutages : s.outages = []
  inStep : s.store.InStep c.store
  sound : c.store.Sound
  versioned : c.store.Versioned
  written : c.store.All fun p j =>
    Managed.Written p.kind j ∧ Managed.place j = .ok (p.namespace, p.name)
  objects : ∀ k n m, s.object (.managed k) n m = c.object k n m
  calls : s.log.filterMap Request.recorded? = c.calls

namespace Imitates
variable {c : LocalCluster} {s : Server} {k : ManagedKind} {n m : String} {j : Json}

theorem empty : Imitates .empty (.empty .drawn) where
  noFaults := rfl
  noOutages := rfl
  inStep := ⟨rfl, rfl, rfl⟩
  sound := ⟨.empty _, .empty _, rfl⟩
  versioned := .empty _
  written := .empty _
  objects := fun _ _ _ => rfl
  calls := rfl

theorem recorded (h : c.Imitates s) {call : Call} {r : Request}
    (hr : r.recorded? = some call.entry) :
    (c.record call).Imitates { s with log := s.log ++ [r] } where
  noFaults := h.noFaults
  noOutages := h.noOutages
  inStep := h.inStep
  sound := h.sound
  versioned := h.versioned
  written := h.written
  objects := h.objects
  calls := by
    rw [List.filterMap_append, h.calls]
    simp only [List.filterMap_cons, hr, List.filterMap_nil]
    rfl

theorem fst_write (h : c.Imitates s) (k : ManagedKind) (n m : String) (j : Json) :
    (s.write (.managed k) n m j).1 = (c.write k n m j).1 := by
  rw [s.write_managed]
  exact h.inStep.fst_write ⟨.managed k, n, m⟩ ⟨k, n, m⟩ (k = .service) j

theorem write (h : c.Imitates s) (hj : Managed.Written k j)
    (hplace : Managed.place j = .ok (n, m)) :
    (c.write k n m j).2.Imitates (s.write (.managed k) n m j).2 where
  noFaults := h.noFaults
  noOutages := h.noOutages
  inStep := by
    rw [s.write_managed]
    exact h.inStep.write ⟨.managed k, n, m⟩ ⟨k, n, m⟩ (k = .service) j
  sound := h.sound.write (Managed.nameOf_getD_of_place hplace)
  versioned := h.versioned.edit (.write _ _ _)
  written := h.written.write
    ⟨Store.written_write _ _ (by simp) hj, (Store.place_write ..).trans hplace⟩
  objects := fun k' n' m' => by
    rw [Server.object_write, object_write, h.fst_write, h.objects]
    simp only [Place.mk.injEq, ResourceKind.managed.injEq]
  calls := h.calls

theorem written_write (h : c.Imitates s) (hj : Managed.Written k j) (n m : String) (o : Named) :
    Server.written k o (.ok (s.write (.managed k) n m j).1) = .ok (c.write k n m j).1 := by
  have hstored : Managed.Written k (c.write k n m j).1 :=
    c.store.written_write ⟨k, n, m⟩ (by simp) hj
  simp only [Server.written, Server.readBack, h.fst_write, hstored.ofJson_eq]

theorem erase (h : c.Imitates s) (k : ManagedKind) (n m : String) :
    Imitates { c with store := c.store.erase ⟨k, n, m⟩ } (s.erase ⟨.managed k, n, m⟩) where
  noFaults := h.noFaults
  noOutages := h.noOutages
  inStep := ⟨h.inStep.versions, h.inStep.addresses, h.inStep.addressing⟩
  sound := h.sound.erase _
  versioned := h.versioned.edit (.erase _)
  written := h.written.erase _
  objects := fun k' n' m' => by
    have hobject := h.objects k' n' m'
    simp only [Server.object, object] at hobject
    simp only [Server.object, Server.erase, object, Store.get?_erase, hobject, Place.mk.injEq,
      ResourceKind.managed.injEq]
  calls := h.calls

theorem insert (h : c.Imitates s) (hj : Managed.ofJson k j = .ok j)
    (hplace : Managed.place j = .ok (n, m)) :
    (c.insert k j).Imitates (s.insert (.managed k) j) := by
  obtain ⟨hname, hnamespace⟩ := Managed.place_eq_ok_iff.1 hplace
  rw [insert_of_place hplace, Server.insert, hname, hnamespace]
  exact h.write (Managed.written_of_ofJson hj) hplace

theorem written_of_object (h : c.Imitates s) (hlive : c.object k n m = some j) :
    Managed.Written k j ∧ Managed.place j = .ok (n, m) :=
  h.written _ _ hlive

theorem get (h : c.Imitates s) (haddress : (Request.get (.managed k) n m).fault? = none) :
    (Server.call (.get k n m) s).1 = (LocalCluster.answer (.get k n m) c).1 ∧
      (LocalCluster.answer (.get k n m) c).2.Imitates (Server.call (.get k n m) s).2 := by
  have hentry : (Request.get (.managed k) n m).recorded? = some (Call.get k n m).entry := rfl
  have hnext := h.recorded hentry
  rw [answer_of_no_faults h.noFaults]
  simp only [Server.call, haddress, Server.answer_of_no_outages h.noOutages, Server.serve, serve,
    hnext.objects]
  cases hlive : (c.record (.get k n m)).object k n m with
  | none => exact ⟨rfl, hnext⟩
  | some live =>
      have hread := (hnext.written_of_object hlive).1.ofJson_eq
      simp only [Server.readBack, hread]
      exact ⟨rfl, hnext⟩

theorem create (h : c.Imitates s) (haddress : (Request.create (.managed k) n j).fault? = none)
    (hplace : Managed.place j = .ok (n, m)) (hj : Managed.Written k j) :
    (Server.call (.create k n j) s).1 = (LocalCluster.answer (.create k n j) c).1 ∧
      (LocalCluster.answer (.create k n j) c).2.Imitates (Server.call (.create k n j) s).2 := by
  have hentry : (Request.create (.managed k) n j).recorded? = some (Call.create k n j).entry := rfl
  have hnext := h.recorded hentry
  have hname := Managed.nameOf_getD_of_place hplace
  rw [answer_of_no_faults h.noFaults]
  simp only [Server.call, haddress, Server.answer_of_no_outages h.noOutages, Server.serve, serve,
    hname, hnext.objects]
  cases (c.record (.create k n j)).object k n m with
  | some live => exact ⟨rfl, hnext⟩
  | none => exact ⟨hnext.written_write hj n m _, hnext.write hj hplace⟩

theorem replace (h : c.Imitates s) (haddress : (Request.replace (.managed k) n m j).fault? = none)
    (hplace : Managed.place j = .ok (n, m)) (hj : Managed.Written k j) {v : String}
    (hv : Managed.versionOf j = some v) :
    (Server.call (.replace k n j) s).1 = (LocalCluster.answer (.replace k n j) c).1 ∧
      (LocalCluster.answer (.replace k n j) c).2.Imitates (Server.call (.replace k n j) s).2 := by
  have hname := Managed.nameOf_getD_of_place hplace
  have hentry :
      (Request.replace (.managed k) n m j).recorded? = some (Call.replace k n j).entry := by
    simp only [Request.recorded?, Call.entry, Call.verb, Call.kind, Call.name, hname]
  have hnext := h.recorded hentry
  rw [answer_of_no_faults h.noFaults]
  simp only [Server.call, hplace, haddress, Server.answer_of_no_outages h.noOutages, Server.serve,
    serve, hname, hnext.objects]
  cases (c.record (.replace k n j)).object k n m with
  | none => exact ⟨rfl, hnext⟩
  | some live =>
      -- the server compares the versions only because the sent object carries one
      simp only [Server.isStale, hv]
      by_cases hlive : Managed.versionOf live = some v
      · simp only [hlive, ne_eq, not_true_eq_false, decide_false, Bool.false_eq_true, if_false,
          if_true]
        exact ⟨hnext.written_write hj n m _, hnext.write hj hplace⟩
      · simp only [ne_eq, hlive, not_false_eq_true, decide_true, if_true, Ne.symm hlive, if_false]
        exact ⟨rfl, hnext⟩

theorem delete (h : c.Imitates s) (haddress : (Request.delete (.managed k) n m).fault? = none) :
    (Server.call (.delete k n m) s).1 = (LocalCluster.answer (.delete k n m) c).1 ∧
      (LocalCluster.answer (.delete k n m) c).2.Imitates (Server.call (.delete k n m) s).2 := by
  have hentry : (Request.delete (.managed k) n m).recorded? = some (Call.delete k n m).entry := rfl
  have hnext := h.recorded hentry
  rw [answer_of_no_faults h.noFaults]
  simp only [Server.call, haddress, Server.answer_of_no_outages h.noOutages, Server.serve, serve,
    hnext.objects]
  cases (c.record (.delete k n m)).object k n m with
  | none => exact ⟨rfl, hnext⟩
  | some live => exact ⟨rfl, hnext.erase k n m⟩

theorem answer (h : c.Imitates s) {call : Call} (hcall : call.Sendable) :
    (Server.call call s).1 = (LocalCluster.answer call c).1 ∧
      (LocalCluster.answer call c).2.Imitates (Server.call call s).2 := by
  cases hcall with
  | get haddress => exact h.get haddress
  | create haddress hplace hj => exact h.create haddress hplace hj
  | replace haddress hplace hj hv => exact h.replace haddress hplace hj hv
  | delete haddress => exact h.delete haddress

theorem sendable (h : c.Imitates s) {p : Plan}
    (hnames : Address.Admits p.blueprint.namespace p.blueprint.name) {st : Stage}
    (hst : p.Current c.store st) {call : Call} {next : call.Answer → Stage}
    (hact : p.act st = .call call next) : call.Sendable := by
  cases st with
  | failed k f | closed outcome => cases hact
  | fetch k | reread k =>
      cases hact
      exact .get (Request.fault?_get hnames k)
  | clear k =>
      cases hact
      exact .delete (Request.fault?_delete hnames k)
  | make k =>
      cases hact
      exact .create (Request.fault?_create hnames k _) (p.blueprint.place_desired _ _ k)
        (p.blueprint.written_desired _ _ k)
  | amend k live =>
      cases hact
      obtain ⟨hlive, hplace⟩ := h.written_of_object hst.2
      obtain ⟨v, -, hversion⟩ := h.versioned _ _ hst.2
      refine .replace (Request.fault?_replace hnames k _) ((Managed.place_amend ..).trans hplace)
        (hlive.amend p.blueprint _ _) (v := resourceVersion v) ?_
      exact (Managed.versionOf_amend ..).trans hversion

theorem run (h : c.Imitates s) {p : Plan}
    (hnames : Address.Admits p.blueprint.namespace p.blueprint.name) {st : Stage}
    (hst : p.Current c.store st) :
    (Program.run Server.call (p.program st) s).1 =
        (Program.run LocalCluster.answer (p.program st) c).1 ∧
      (Program.run LocalCluster.answer (p.program st) c).2.Imitates
        (Program.run Server.call (p.program st) s).2 := by
  -- on the number of calls that are left: both make the one of the stage, and are alike again
  induction hleft : st.left using Nat.strongRecOn generalizing st c s with
  | ind left ih =>
      have hprogram := p.program_eq st
      cases hact : p.act st with
      | finish outcome =>
          rw [hact] at hprogram
          rw [hprogram]
          exact ⟨rfl, h⟩
      | call call next =>
          rw [hact] at hprogram
          obtain ⟨hanswer, hafter⟩ := h.answer (h.sendable hnames hst hact)
          have hturn : p.turn st c =
              (next (LocalCluster.answer call c).1, (LocalCluster.answer call c).2) := by
            rw [Plan.turn, hact]
          have hcurrent := Plan.current_turn hst h.sound
          have hless := (p.follows_turn st c).left_le
          rw [hturn] at hcurrent hless
          dsimp only at hless
          have hpositive : st.left ≠ 0 := by
            intro hzero
            obtain ⟨outcome, hdone⟩ := Plan.program_of_left_eq_zero (p := p) hzero
            cases hprogram.symm.trans hdone
          rw [hprogram, Program.run_call, Program.run_call, hanswer]
          exact ih _ (by omega) hafter hcurrent rfl

end Imitates

end LocalCluster

structure Seam (σ : Type) where
  answer : (call : Call) → σ → call.Answer × σ
  calls : σ → List Entry
  object : σ → ManagedKind → String → String → Option Json

def LocalCluster.seam : Seam LocalCluster := ⟨answer, calls, object⟩

def Server.seam : Seam Server :=
  ⟨call, fun s => s.log.filterMap Request.recorded?, fun s k => s.object (.managed k)⟩

structure Passed where
  outcome : Except Failure String
  address : Option String
  calls : List Entry
  object : ManagedKind → String → String → Option Json

namespace Seam
variable {σ : Type}

def pass (m : Seam σ) (k : Keeper) (lookup : Lookup) (s : σ) : Passed × σ :=
  let ((outcome, k), s') := (k.pass lookup).run m.answer s
  (⟨outcome, k.address, (m.calls s').drop (m.calls s).length, m.object s'⟩, s')

def passes (m : Seam σ) : List (Keeper × Lookup) → σ → List Passed
  | [], _ => []
  | (k, lookup) :: ps, s => (m.pass k lookup s).1 :: m.passes ps (m.pass k lookup s).2

end Seam

def PackageRegistry.Addressable (r : PackageRegistry) : Prop :=
  ∃ n m, r.KeptAt n m ∧ Address.Admits n m

theorem Keeper.run_pass {σ : Type} (answer : (call : Call) → σ → call.Answer × σ) (k : Keeper)
    (lookup : Lookup) (s : σ) :
    (k.pass lookup).run answer s =
      let (outcome, s') := Program.run answer (establish lookup k.registry k.image).run s
      ((outcome, k.after outcome), s') :=
  Program.run_bind ..

theorem LocalCluster.Imitates.pass {c : LocalCluster} {s : Server} (h : c.Imitates s) {k : Keeper}
    (hk : k.registry.Addressable) (lookup : Lookup) :
    (LocalCluster.seam.pass k lookup c).1 = (Server.seam.pass k lookup s).1 ∧
      (LocalCluster.seam.pass k lookup c).2.Imitates (Server.seam.pass k lookup s).2 := by
  obtain ⟨n, m, hkept, hnames⟩ := hk
  let p := Plan.of lookup k.registry ⟨m, n, k.registry.metadata.uid.getD "", k.image⟩
  have hprogram : (establish lookup k.registry k.image).run = p.program (.fetch .serviceAccount) :=
    run_establish_of_blueprint (Blueprint.of_keptAt hkept k.image) lookup
  have hstart : p.Current c.store (.fetch .serviceAccount) := trivial
  obtain ⟨houtcome, hafter⟩ := h.run hnames hstart
  simp only [Seam.pass, Keeper.run_pass, hprogram]
  refine ⟨?_, hafter⟩
  simp only [LocalCluster.seam, Server.seam, houtcome, h.calls, hafter.calls, Passed.mk.injEq,
    true_and]
  funext k' n' m'
  exact (hafter.objects k' n' m').symm

namespace LocalCluster.Imitates
variable {c : LocalCluster} {s : Server}

theorem insertEach (h : c.Imitates s) {objects : List (ManagedKind × Json)}
    (hobjects : ∀ e ∈ objects, Managed.ofJson e.1 e.2 = .ok e.2 ∧
      ∃ n m, Managed.place e.2 = .ok (n, m)) :
    (objects.foldl (fun c e => c.insert e.1 e.2) c).Imitates
      (objects.foldl (fun s e => s.insert (.managed e.1) e.2) s) := by
  induction objects generalizing c s with
  | nil => exact h
  | cons e objects ih =>
      obtain ⟨⟨hj, n, m, hplace⟩, hrest⟩ := List.forall_mem_cons.1 hobjects
      exact ih (h.insert hj hplace) hrest

theorem passes (h : c.Imitates s) {passes : List (Keeper × Lookup)}
    (hpasses : ∀ e ∈ passes, e.1.registry.Addressable) :
    LocalCluster.seam.passes passes c = Server.seam.passes passes s := by
  induction passes generalizing c s with
  | nil => rfl
  | cons e passes ih =>
      obtain ⟨he, hrest⟩ := List.forall_mem_cons.1 hpasses
      obtain ⟨hsame, hafter⟩ := h.pass he e.2
      rw [Seam.passes, Seam.passes, hsame, ih hafter hrest]

end LocalCluster.Imitates

theorem same_passes_at_server {objects : List (ManagedKind × Json)}
    (hobjects : ∀ e ∈ objects, Managed.ofJson e.1 e.2 = .ok e.2 ∧
      ∃ n m, Managed.place e.2 = .ok (n, m))
    {passes : List (Keeper × Lookup)} (hpasses : ∀ e ∈ passes, e.1.registry.Addressable) :
    LocalCluster.seam.passes passes
        (objects.foldl (fun c e => c.insert e.1 e.2) LocalCluster.empty) =
      Server.seam.passes passes
        (objects.foldl (fun s e => s.insert (.managed e.1) e.2) (Server.empty .drawn)) :=
  (LocalCluster.Imitates.empty.insertEach hobjects).passes hpasses

theorem same_passes_at_server_over_leftovers :
    let metadata : Metadata := { Metadata.empty with
      name := some "community", «namespace» := some "marketplace", uid := some "r-1" }
    let keeper : Keeper := .new ⟨metadata, ⟨["etcd"]⟩, none⟩ "quay.io/registry:1"
    let b : Blueprint := ⟨"community", "marketplace", "r-0", "quay.io/registry:0"⟩
    let objects := [(.role, b.role [⟨"marketplace", "old"⟩]), (.service, b.service)]
    let passes : List (Keeper × Lookup) :=
      [(keeper, fun p => .error (.packageNotFound p)),
        (keeper, fun _ => .ok ⟨"marketplace", "upstream"⟩)]
    let c := objects.foldl (fun c e => c.insert e.1 e.2) LocalCluster.empty
    let s := objects.foldl (fun s e => s.insert (.managed e.1) e.2) (Server.empty .drawn)
    (∀ e ∈ objects, Managed.ofJson e.1 e.2 = .ok e.2 ∧ ∃ n m, Managed.place e.2 = .ok (n, m)) ∧
      (∀ e ∈ passes, e.1.registry.Addressable) ∧
      (LocalCluster.seam.passes passes c).map (fun p => (p.outcome, p.calls.length)) =
        [(.ok "10.96.0.2:50051", 11), (.ok "10.96.0.3:50051", 10)] ∧
      LocalCluster.seam.passes passes c = Server.seam.passes passes s := by
  intro metadata keeper b objects passes c s
  have hobjects : ∀ e ∈ objects, Managed.ofJson e.1 e.2 = .ok e.2 ∧
      ∃ n m, Managed.place e.2 = .ok (n, m) := by
    refine List.forall_mem_cons.2 ⟨?_, List.forall_mem_singleton.2 ?_⟩
    · exact ⟨(b.written_desired [] [⟨"marketplace", "old"⟩] .role).ofJson_eq, _, _,
        b.place_desired [] [⟨"marketplace", "old"⟩] .role⟩
    · exact ⟨(b.written_desired [] [] .service).ofJson_eq, _, _, b.place_desired [] [] .service⟩
  have hkeeper : keeper.registry.Addressable :=
    ⟨"marketplace", "community", ⟨rfl, rfl⟩, ⟨by decide, by decide, by decide⟩⟩
  have hpasses : ∀ e ∈ passes, e.1.registry.Addressable :=
    List.forall_mem_cons.2 ⟨hkeeper, List.forall_mem_singleton.2 hkeeper⟩
  exact ⟨hobjects, hpasses, by decide +kernel, same_passes_at_server hobjects hpasses⟩

theorem Server.pass_of_long_names {k : Keeper} {n m : String} (hkept : k.registry.KeptAt n m)
    (hname : m ≠ "") (hlong : Address.limit < n.utf8ByteSize + m.utf8ByteSize) (lookup : Lookup)
    (s : Server) :
    (Server.seam.pass k lookup s).1.outcome = .error (.api .tooLong) ∧
      (Server.seam.pass k lookup s).2 = s := by
  let p := Plan.of lookup k.registry ⟨m, n, k.registry.metadata.uid.getD "", k.image⟩
  have hprogram : (establish lookup k.registry k.image).run = p.program (.fetch .serviceAccount) :=
    run_establish_of_blueprint (Blueprint.of_keptAt hkept k.image) lookup
  have haddress : (Request.get (.managed .serviceAccount) p.blueprint.namespace
      p.blueprint.name).fault? = some .tooLong :=
    Request.fault?_get_of_long .serviceAccount hname hlong
  have hrun : Program.run Server.call (p.program (.fetch .serviceAccount)) s =
      (.error (.api .tooLong), s) := by
    rw [p.program_eq, Plan.act, Program.run_call, Server.call, haddress]
    rfl
  simp only [Seam.pass, Keeper.run_pass, hprogram, Server.seam, hrun, true_and]

theorem other_passes_at_server :
    ¬ ∀ (objects : List (ManagedKind × Json)) (passes : List (Keeper × Lookup)),
      (∀ e ∈ objects, Managed.ofJson e.1 e.2 = .ok e.2 ∧ ∃ n m, Managed.place e.2 = .ok (n, m)) →
      (∀ e ∈ passes, ∃ n m, e.1.registry.KeptAt n m ∧ n ≠ "" ∧ m ≠ "") →
      LocalCluster.seam.passes passes
          (objects.foldl (fun c e => c.insert e.1 e.2) LocalCluster.empty) =
        Server.seam.passes passes
          (objects.foldl (fun s e => s.insert (.managed e.1) e.2) (Server.empty .drawn)) := by
  intro h
  let metadata : Metadata := { Metadata.empty with
    name := some "a b", «namespace» := some "marketplace", uid := some "r-1" }
  let keeper : Keeper := .new ⟨metadata, ⟨["etcd"]⟩, none⟩ "registry:1"
  let passes : List (Keeper × Lookup) := [(keeper, fun p => .error (.packageNotFound p))]
  have hpasses : ∀ e ∈ passes, ∃ n m, e.1.registry.KeptAt n m ∧ n ≠ "" ∧ m ≠ "" :=
    List.forall_mem_singleton.2 ⟨"marketplace", "a b", ⟨rfl, rfl⟩, by decide, by decide⟩
  have hlocal : (LocalCluster.seam.passes passes .empty).map (·.outcome) =
      [.ok "10.96.0.1:50051"] := by
    decide +kernel
  have hserver : (Server.seam.passes passes (.empty .drawn)).map (·.outcome) =
      [.error (.api .invalidPath)] := by
    decide +kernel
  have hsame := congrArg (List.map (·.outcome)) (h [] passes (by simp) hpasses)
  exact absurd (hlocal.symm.trans (hsame.trans hserver)) (by simp)

end RegistryKeeper
