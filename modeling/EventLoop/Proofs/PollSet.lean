import EventLoop.PollSet
import EventLoop.Proofs.Flags

/-!
# What a set of descriptors finds

A set is built by adding one watcher after the other, so that the descriptor of each watcher stands
one place behind the watcher itself, and the host reports in place. So each watcher is told what was
reported for its own descriptor, whatever was reported for the others.
-/
namespace EventLoop

namespace Watched

/-- What the host reports for the descriptor of the watcher. -/
def reported (x : Watched) (report : Descriptor → PollFlags → PollFlags) : PollFlags :=
  report (.watched x.fd) x.interest.toPoll

/-- What the watcher is told if the host reports this for its descriptor. -/
def told (x : Watched) (report : Descriptor → PollFlags → PollFlags) : Events :=
  (x.reported report).toEvents x.interest

/-- The place of the watcher in a set, with what was reported. -/
def slot (x : Watched) (reported : PollFlags) : PollSlot :=
  ⟨.watched x.fd, x.interest.toPoll, reported⟩

/-- What is reported is what was polled for, and what is reported unasked. -/
def Answered (x : Watched) (report : Descriptor → PollFlags → PollFlags) : Prop :=
  (x.reported report).subset x.interest.toPoll.reportable = true

variable {x : Watched} {report : Descriptor → PollFlags → PollFlags}

/-- Who is reported anything is told something. -/
theorem Answered.told_nonempty (h : x.Answered report)
    (hreported : (x.reported report).isEmpty = false) : (x.told report).isEmpty = false :=
  PollFlags.toEvents_nonempty h hreported

theorem told_named (x : Watched) (report : Descriptor → PollFlags → PollFlags) :
    (x.told report).Named := PollFlags.toEvents_named _ x.interest

end Watched

namespace PollSet

variable {s : PollSet} {list : List Watched} {report : Descriptor → PollFlags → PollFlags}

theorem foldl_push (s : PollSet) (list : List Watched) :
    list.foldl push s = ⟨s.slots ++ list.map fun x => x.slot ∅, s.entries ++ list⟩ := by
  induction list generalizing s with
  | nil => simp
  | cons x list ih =>
    rw [List.foldl_cons, ih]
    simp [push, Watched.slot]

/-- Behind the loopback channel the descriptors are in the order of the watchers. -/
theorem ofList_eq (list : List Watched) : ofList list =
    ⟨⟨.loopback, Mask.only .input, ∅⟩ :: list.map fun x => x.slot ∅, list⟩ := by
  rw [ofList, foldl_push]
  rfl

/-- Each descriptor gets its own report. -/
theorem answer_ofList (list : List Watched) (report : Descriptor → PollFlags → PollFlags) :
    (ofList list).answer report =
      ⟨⟨.loopback, Mask.only .input, report .loopback (Mask.only .input)⟩ ::
        list.map fun x => x.slot (x.reported report), list⟩ := by
  rw [ofList_eq, answer]
  simp [Watched.slot, Watched.reported]

theorem zip_slots (list : List Watched) (report : Descriptor → PollFlags → PollFlags) :
    (list.map fun x => x.slot (x.reported report)).zip list =
      list.map fun x => (x.slot (x.reported report), x) := by
  induction list with
  | nil => rfl
  | cons x list ih => exact congrArg (_ :: ·) ih

/-- Every watcher for which something is reported is paired with what is reported for it. -/
theorem ready_ofList (list : List Watched) (report : Descriptor → PollFlags → PollFlags) :
    ((ofList list).answer report).ready =
      ((list.filter fun x => !(x.reported report).isEmpty).map fun x => (x, x.told report)).filter
        fun v => !v.2.isEmpty := by
  rw [answer_ofList, ready, List.tail_cons, zip_slots]
  simp only [List.filter_map, List.map_map]
  rfl

theorem mem_ready {v : Watched × Events} : v ∈ ((ofList list).answer report).ready ↔
    v.1 ∈ list ∧ (v.1.reported report).isEmpty = false ∧ v.2 = v.1.told report ∧
      v.2.isEmpty = false := by
  simp only [ready_ofList, List.mem_filter, List.mem_map, Bool.not_eq_true']
  constructor
  · rintro ⟨⟨x, ⟨hx, hreported⟩, rfl⟩, htold⟩
    exact ⟨hx, hreported, rfl, htold⟩
  · rintro ⟨hx, hreported, htold, hne⟩
    exact ⟨⟨v.1, ⟨hx, hreported⟩, Prod.ext rfl htold.symm⟩, hne⟩

/-- Watchers are found in the order of the list, each at most as often as it is listed. -/
theorem ready_sublist (list : List Watched) (report : Descriptor → PollFlags → PollFlags) :
    (((ofList list).answer report).ready.map Prod.fst).Sublist list := by
  rw [ready_ofList, List.filter_map, List.map_map]
  exact (List.map_id _).symm ▸ (List.filter_sublist.trans List.filter_sublist)

/-- If nothing was reported at all, nobody is found. -/
theorem ready_of_unanswered (h : ((ofList list).answer report).isAnswered = false) :
    ((ofList list).answer report).ready = [] := by
  refine List.eq_nil_iff_forall_not_mem.mpr fun v hv => ?_
  obtain ⟨hx, hreported, -, -⟩ := mem_ready.mp hv
  rw [answer_ofList, isAnswered, List.any_eq_false] at h
  have hslot := h (v.1.slot (v.1.reported report))
    (List.mem_cons_of_mem _ (List.mem_map.mpr ⟨v.1, hx, rfl⟩))
  rw [Watched.slot, hreported] at hslot
  exact hslot rfl

/-- The loopback channel is in order: if something is reported for it, all it holds can be read. -/
def InOrder (s : PollSet) (drained : Drained) (report : Descriptor → PollFlags → PollFlags) : Prop :=
  (s.answer report).isWoken = true → drained = .empty

theorem verdict_of_inOrder {drained : Drained} (h : (ofList list).InOrder drained report) :
    (ofList list).verdict drained (.answered report) =
      if ((ofList list).answer report).isAnswered then
        .delivers ((ofList list).answer report).ready else .again := by
  rw [verdict]
  cases hanswered : ((ofList list).answer report).isAnswered with
  | false => rfl
  | true =>
    cases hwoken : ((ofList list).answer report).isWoken with
    | false => rfl
    | true =>
      rw [h hwoken]
      rfl

/-- Whoever finds the loopback channel closed delivers nothing and dies. -/
theorem verdict_closed (list : List Watched) (report : Descriptor → PollFlags → PollFlags) :
    (ofList list).verdict .closed
      (.answered (Descriptor.withLoopback (Mask.only .hangup) report)) = .ends := by
  have hwakes : ((Mask.only PollFlag.hangup).has .input || (Mask.only PollFlag.hangup).has .hangup ||
      (Mask.only PollFlag.hangup).has .failure) = true := by decide
  generalize hreport : Descriptor.withLoopback (Mask.only .hangup) report = report'
  have hloopback : report' .loopback (Mask.only .input) = Mask.only .hangup := hreport ▸ rfl
  have hanswered : ((ofList list).answer report').isAnswered = true := by
    rw [answer_ofList, isAnswered, List.any_cons, hloopback]
    exact Bool.true_or _
  have hwoken : ((ofList list).answer report').isWoken = true := by
    rw [answer_ofList, hloopback]
    exact hwakes
  rw [verdict, hanswered, hwoken]
  rfl

end PollSet

namespace Poller

variable {q : Poller} {entries : List Watched} {report : Descriptor → PollFlags → PollFlags}
  {v : WatcherRef × Events}

/-- The entries were on the list once: each has left it since, or is on it still. -/
def HasListed (q : Poller) (entries : List Watched) : Prop :=
  ∀ x ∈ entries, q.lists x.ticket = true → x ∈ q.watched

theorem lists_of_mem {x : Watched} (q : Poller) (hx : x ∈ q.watched) : q.lists x.ticket = true :=
  List.any_eq_true.mpr ⟨x, hx, beq_self_eq_true _⟩

/-- What a poller delivers to whom when a poll of some entries ends with such reports. -/
def found (q : Poller) (entries : List Watched)
    (report : Descriptor → PollFlags → PollFlags) : List (WatcherRef × Events) :=
  (((PollSet.ofList entries).answer report).ready.filter fun v => q.lists v.1.ticket).map
    fun v => (v.1.watcher, v.2)

/-- Who is found is listed still, and is told of what is reported for its entry. -/
theorem mem_found :
    v ∈ q.found entries report ↔ ∃ x ∈ entries, q.lists x.ticket = true ∧
      (x.reported report).isEmpty = false ∧ v = (x.watcher, x.told report) ∧
      v.2.isEmpty = false := by
  simp only [found, List.mem_map, List.mem_filter, PollSet.mem_ready]
  constructor
  · rintro ⟨⟨x, events⟩, ⟨⟨hx, hreported, htold, hne⟩, hlisted⟩, rfl⟩
    exact ⟨x, hx, hlisted, hreported, by rw [← htold], hne⟩
  · rintro ⟨x, hx, hlisted, hreported, rfl, hne⟩
    exact ⟨(x, x.told report), ⟨⟨hx, hreported, rfl, hne⟩, hlisted⟩, rfl⟩

theorem found_named (h : v ∈ q.found entries report) : v.2.Named ∧ v.2.isEmpty = false := by
  obtain ⟨x, -, -, -, rfl, hne⟩ := mem_found.mp h
  exact ⟨x.told_named report, hne⟩

/-- Nobody is found twice who is not listed twice among those that are listed still. -/
theorem found_sublist (q : Poller) (entries : List Watched)
    (report : Descriptor → PollFlags → PollFlags) :
    ((q.found entries report).map Prod.fst).Sublist
      ((entries.filter fun x => q.lists x.ticket).map Watched.watcher) := by
  have hready := PollSet.ready_sublist entries report
  have hfilter := hready.filter fun x => q.lists x.ticket
  rw [List.filter_map] at hfilter
  have hmap := hfilter.map Watched.watcher
  rw [found, List.map_map]
  rw [List.map_map] at hmap
  exact hmap

end Poller
end EventLoop
