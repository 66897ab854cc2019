import CloudabiEmulator.SockSendSpec

/-! `sys_poll`. Past the futex calls (`futex_op_poll`, not under `src/`, is an oracle) and the
single clock subscription, which sleeps, the call converts the subscriptions into a `pollfd`
array under the table's read lock, taking a reference to the object of every descriptor it can
poll and queuing an immediate event for every subscription it cannot; computes the timeout;
calls the host's `poll`; and merges its answer into events. Every event is traced to the index
of the subscription it comes from: the immediate ones, then either the clock or the descriptor
events, each in ascending index. When the host `poll` returns `0`, nothing immediate was queued
and there is a relative clock, the clock event is the only one, whatever `revents` hold. A
relative clock of `2^31 * 10^6` nanoseconds or more is passed to `poll` as `-1`, an unbounded
wait. The host's `poll` is an oracle of the `pollfd` array and the timeout it is given; the
event fields are those of hosts other than macOS. -/

namespace CloudabiEmulator

/-- `cloudabi_eventtype_t`: the clock and the two descriptor events the general path handles,
and the others (`CONDVAR`, `LOCK_RDLOCK`, `LOCK_WRLOCK`, `PROC_TERMINATE`), which it refuses. -/
inductive EventType where
  | clock | fdRead | fdWrite | other (tag : Nat)
  deriving DecidableEq, Repr

/-- A `cloudabi_subscription_t` with the union members the code reads: `fd_readwrite.fd` for
the descriptor events, `clock.timeout` and the `ABSTIME` flag for clocks. -/
structure Subscription where
  userdata : Nat
  type : EventType
  fd : Nat
  timeout : Nat
  abstime : Bool
  deriving DecidableEq, Repr

/-- A `cloudabi_event_t` as `sys_poll` fills it (`error` `none` for `0`); the fields a compound
literal leaves out are zero. -/
structure Event where
  userdata : Nat
  error : Option Errno
  type : EventType
  nbytes : Nat
  hangup : Bool
  deriving DecidableEq, Repr

/-- `pollfd.events`: `POLLRDNORM`, `POLLWRNORM`, or nothing for an entry with `fd = -1`. -/
inductive PollEvents where
  | none | rdnorm | wrnorm
  deriving DecidableEq, Repr

/-- `struct pollfd` as the code fills it. -/
structure PollFd where
  fd : Int
  events : PollEvents
  deriving DecidableEq, Repr

/-- The bits of `pollfd.revents` the code tests. -/
structure Revents where
  nval : Bool
  err : Bool
  hup : Bool
  rdnorm : Bool
  wrnorm : Bool
  deriving DecidableEq, Repr, Inhabited

/-- The host's answers: `poll pfds timeout` is what `poll` returns and the `revents` it sets,
entry by entry (entries past the list have none set); `errno` is `convert_errno(errno)` after a
failed `poll`; `fionread fd` is the count `ioctl(fd, FIONREAD)` stores, `none` when it fails. -/
structure PollHost where
  poll : List PollFd → Int → Int × List Revents
  errno : Errno
  fionread : Int → Option Int

/-- What the conversion loop has built: `fos`, the `pollfd` array, the immediate events and
`clock_subscription`. -/
structure PollPrep where
  fos : List (Option Nat)
  pfds : List PollFd
  immediate : List Event
  clock : Option Subscription
  deriving DecidableEq, Repr

/-- One more subscription converted: its entries of `fos` and `pfds`, and its immediate event. -/
def PollPrep.push (p : PollPrep) (fo : Option Nat) (pfd : PollFd) (ev : Option Event) :
    PollPrep :=
  { p with fos := p.fos ++ [fo], pfds := p.pfds ++ [pfd], immediate := p.immediate ++ ev.toList }

/-- The event the conversion loop queues for a subscription it does not poll. -/
def immediateEvent (s : Subscription) (e : Errno) : Event := ⟨s.userdata, some e, s.type, 0, false⟩

/-- `pfds[i] = (struct pollfd){.fd = -1}`. -/
def skippedPollFd : PollFd := ⟨-1, .none⟩

/-- The body of the conversion loop for one subscription. A clock that is absolute, or not the
first relative one, falls through to the unsupported case. -/
def pollConvertOne (m : RightsMasks) (sys : Sys) (p : PollPrep) (s : Subscription) :
    Except Fault (Sys × PollPrep) :=
  match s.type with
  | .fdRead | .fdWrite => do
    match ← fdObjectGetLocked sys s.fd m.pollFdReadwrite 0 with
    | (sys, .ok fo) =>
      match sys.objects fo with
      | none => .error .useAfterFree
      | some obj => do
        let fd ← fdNumber obj
        return (sys, p.push (some fo) ⟨fd, if s.type = .fdRead then .rdnorm else .wrnorm⟩ none)
    | (sys, .error e) => return (sys, p.push none skippedPollFd (some (immediateEvent s e)))
  | .clock =>
    if p.clock = none ∧ s.abstime = false then
      .ok (sys, { p.push none skippedPollFd none with clock := some s })
    else .ok (sys, p.push none skippedPollFd (some (immediateEvent s .enosys)))
  | .other _ => .ok (sys, p.push none skippedPollFd (some (immediateEvent s .enosys)))

/-- The conversion loop `for (size_t i = 0; i < nsubscriptions; ++i)`. -/
def pollConvert (m : RightsMasks) (sys : Sys) (p : PollPrep) :
    List Subscription → Except Fault (Sys × PollPrep)
  | [] => .ok (sys, p)
  | s :: rest => do
    let (sys, p) ← pollConvertOne m sys p s
    pollConvert m sys p rest

/-- `INT_MAX`. -/
def intMax : Int := 2 ^ 31 - 1

/-- The timeout passed to `poll`, in milliseconds: `0` once an event is queued, `-1` without a
relative clock, and otherwise `ts > INT_MAX ? -1 : ts` for `ts` its timeout over `10^6`. -/
def pollTimeout (nevents : Nat) (clock : Option Subscription) : Int :=
  if nevents ≠ 0 then 0
  else
    match clock with
    | some c => if intMax < (c.timeout / 1000000 : Nat) then -1 else (c.timeout / 1000000 : Nat)
    | none => -1

/-- `nbytes` of an event: for `FD_READ` what `FIONREAD` stores, an `int` widened to the 64-bit
`cloudabi_filesize_t`; `0` otherwise and when the `ioctl` fails. -/
def pollNbytes (host : PollHost) (s : Subscription) (fd : Int) : Nat :=
  if s.type = .fdRead then
    match host.fionread fd with
    | some l => (l % 2 ^ 64).toNat
    | none => 0
  else 0

/-- The event of a polled descriptor from its `revents`: `POLLNVAL`, `POLLERR`, `POLLHUP`, then
`POLLRDNORM | POLLWRNORM`, and none when no such bit is set. -/
def pollEvent (s : Subscription) (r : Revents) (nbytes : Nat) : Option Event :=
  if r.nval then some ⟨s.userdata, some .ebadf, s.type, 0, false⟩
  else if r.err then some ⟨s.userdata, some .eio, s.type, 0, false⟩
  else if r.hup then some ⟨s.userdata, none, s.type, nbytes, true⟩
  else if r.rdnorm || r.wrnorm then some ⟨s.userdata, none, s.type, nbytes, false⟩
  else none

/-- The merge loop over the entries with `pfds[i].fd >= 0`, in ascending index. -/
def pollMerge (host : PollHost) (subs : List Subscription) (pfds : List PollFd)
    (revents : List Revents) : List Event :=
  (List.range subs.length).filterMap fun i =>
    match subs[i]?, pfds[i]? with
    | some s, some pfd =>
      if 0 ≤ pfd.fd then pollEvent s (revents.getD i default) (pollNbytes host s pfd.fd) else none
    | _, _ => none

/-- The events after the host's `poll` returned `ret` with `revents`: its error when it is `-1`;
the clock event alone when it is `0` with nothing queued and a relative clock; the queued events
and the merged ones otherwise. -/
def pollResult (host : PollHost) (subs : List Subscription) (p : PollPrep) (ret : Int)
    (revents : List Revents) : Except Errno (List Event) :=
  if ret = -1 then .error host.errno
  else
    match p.clock with
    | some c =>
      if ret = 0 ∧ p.immediate = [] then .ok [⟨c.userdata, none, .clock, 0, false⟩]
      else .ok (p.immediate ++ pollMerge host subs p.pfds revents)
    | none => .ok (p.immediate ++ pollMerge host subs p.pfds revents)

/-- The general path of `sys_poll`, after the two allocations of `fos` and `pfds`: convert,
`poll`, merge, and release every reference taken. -/
def sysPollGeneral (m : RightsMasks) (host : PollHost) (sys : Sys) (subs : List Subscription)
    (mallocFos mallocPfds : Bool) : Except Fault (Sys × Except Errno (List Event)) :=
  if !mallocFos then .ok (sys, .error .enomem)
  else if !mallocPfds then .ok (sys, .error .enomem)
  else do
    let (sys, p) ← pollConvert m sys ⟨[], [], [], none⟩ subs
    let (ret, revents) := host.poll p.pfds (pollTimeout p.immediate.length p.clock)
    let sys ← releaseAll sys (p.fos.filterMap id)
    return (sys, pollResult host subs p ret revents)

/-- `sys_poll`: `futex` is what `futex_op_poll` makes of the call (`none` when it leaves it),
and `sleep` the error of the sleep a single clock subscription makes. -/
def sysPoll (m : RightsMasks) (host : PollHost) (futex : Option (List Event)) (sleep : Option Errno)
    (sys : Sys) (subs : List Subscription) (mallocFos mallocPfds : Bool) :
    Except Fault (Sys × Except Errno (List Event)) :=
  match futex with
  | some evs => .ok (sys, .ok evs)
  | none =>
    match subs with
    | [s] =>
      if s.type = .clock then .ok (sys, .ok [⟨s.userdata, sleep, s.type, 0, false⟩])
      else sysPollGeneral m host sys subs mallocFos mallocPfds
    | _ => sysPollGeneral m host sys subs mallocFos mallocPfds

/-- A relative clock subscription, the kind `sys_poll` takes its timeout from. -/
def Subscription.relativeClock (s : Subscription) : Bool := s.type = .clock ∧ s.abstime = false

/-- What the conversion loop makes of the subscription `s` in the process `sys`, `taken` telling
whether a relative clock came before it: the object it keeps, the `pollfd` entry and the
immediate event. -/
def pollConversion (m : RightsMasks) (sys : Sys) (taken : Bool) (s : Subscription) :
    Option Nat × PollFd × Option Event :=
  match s.type with
  | .fdRead | .fdWrite =>
    match fdTableGetEntry sys.table s.fd m.pollFdReadwrite 0 with
    | .ok fe =>
      (some fe.object, ⟨((sys.objects fe.object).map FdObject.number).getD (-1),
        if s.type = .fdRead then .rdnorm else .wrnorm⟩, none)
    | .error e => (none, skippedPollFd, some (immediateEvent s e))
  | .clock =>
    if taken = false ∧ s.abstime = false then (none, skippedPollFd, none)
    else (none, skippedPollFd, some (immediateEvent s .enosys))
  | .other _ => (none, skippedPollFd, some (immediateEvent s .enosys))

/-- Whether a relative clock comes before the `i`-th subscription. -/
def clockBefore (subs : List Subscription) (i : Nat) : Bool :=
  (subs.take i).any Subscription.relativeClock

/-- The conversion of the `i`-th subscription. -/
def pollConversionAt (m : RightsMasks) (sys : Sys) (subs : List Subscription) (i : Nat) :
    Option Nat × PollFd × Option Event :=
  match subs[i]? with
  | some s => pollConversion m sys (clockBefore subs i) s
  | none => (none, skippedPollFd, none)

/-- The conversion loop's result after the first `k` subscriptions, read off index by index. -/
def pollPrepUpTo (m : RightsMasks) (sys : Sys) (subs : List Subscription) (k : Nat) : PollPrep :=
  ⟨(List.range k).map fun i => (pollConversionAt m sys subs i).1,
    (List.range k).map fun i => (pollConversionAt m sys subs i).2.1,
    (List.range k).filterMap fun i => (pollConversionAt m sys subs i).2.2,
    (subs.take k).find? Subscription.relativeClock⟩

/-- The immediate event of the `i`-th subscription. -/
def pollImmediateAt (m : RightsMasks) (sys : Sys) (subs : List Subscription) (i : Nat) :
    Option Event :=
  (pollConversionAt m sys subs i).2.2

/-- The event the merge makes of the `i`-th subscription when it kept an object, from the
`revents` of its entry. -/
def pollReadyAt (m : RightsMasks) (host : PollHost) (sys : Sys) (subs : List Subscription)
    (revents : List Revents) (i : Nat) : Option Event :=
  match subs[i]?, pollConversionAt m sys subs i with
  | some s, (some _, pfd, _) => pollEvent s (revents.getD i default) (pollNbytes host s pfd.fd)
  | _, _ => none

section Convert

variable {m : RightsMasks} {sys sys' : Sys} {held : List Nat} {p p' : PollPrep} {s : Subscription}

theorem pollConvertOne_bump (h : pollConvertOne m (sys.bump held) p s = .ok (sys', p')) :
    p' = { p.push (pollConversion m sys p.clock.isSome s).1 (pollConversion m sys p.clock.isSome s).2.1
        (pollConversion m sys p.clock.isSome s).2.2 with
          clock := if p.clock = none ∧ s.relativeClock then some s else p.clock } ∧
      sys' = sys.bump (held ++ (pollConversion m sys p.clock.isSome s).1.toList) ∧
      ∀ fo, (pollConversion m sys p.clock.isSome s).1 = some fo →
        ∃ obj, sys.objects fo = some obj ∧ 0 ≤ obj.number := by
  unfold pollConvertOne at h
  cases hty : s.type with
  | clock =>
    rw [hty] at h
    cases hc : p.clock <;> cases ha : s.abstime <;>
      simp [hc, ha, hty, pollConversion, Subscription.relativeClock] at h ⊢ <;>
      obtain ⟨rfl, rfl⟩ := h <;> simp [PollPrep.push, hc]
  | other tag =>
    rw [hty] at h
    cases h
    simp [pollConversion, hty, Subscription.relativeClock, PollPrep.push]
  | fdRead | fdWrite =>
    rw [hty, fdObjectGetLocked_bump] at h
    cases hget : fdTableGetEntry sys.table s.fd m.pollFdReadwrite 0 with
    | error e =>
      simp only [hget, bind, Except.bind, pure, Except.pure, Except.ok.injEq, Prod.mk.injEq] at h
      obtain ⟨rfl, rfl⟩ := h
      simp only [pollConversion, hty, hget]
      simp [Subscription.relativeClock, PollPrep.push, hty]
    | ok fe =>
      cases hobj : sys.objects fe.object with
      | none =>
        simp only [hget, hobj] at h
        cases h
      | some obj =>
        simp only [hget, hobj, bind, Except.bind, Sys.bump_objects, Option.map_some', fdNumber] at h
        by_cases hnum : 0 ≤ obj.number
        · simp only [if_pos hnum, pure, Except.pure, Except.ok.injEq, Prod.mk.injEq] at h
          obtain ⟨rfl, rfl⟩ := h
          simp only [pollConversion, hty, hget, hobj]
          simp [Subscription.relativeClock, PollPrep.push, hty, hobj, hnum]
        · simp only [if_neg hnum] at h
          cases h

theorem clockBefore_eq (subs : List Subscription) (k : Nat) :
    clockBefore subs k = ((subs.take k).find? Subscription.relativeClock).isSome := by
  rw [clockBefore, Bool.eq_iff_iff, List.any_eq_true, List.find?_isSome]

theorem pollPrepUpTo_succ {subs : List Subscription} {k : Nat} (hk : subs[k]? = some s) :
    pollPrepUpTo m sys subs (k + 1) =
      { (pollPrepUpTo m sys subs k).push
          (pollConversion m sys (pollPrepUpTo m sys subs k).clock.isSome s).1
          (pollConversion m sys (pollPrepUpTo m sys subs k).clock.isSome s).2.1
          (pollConversion m sys (pollPrepUpTo m sys subs k).clock.isSome s).2.2 with
        clock := if (pollPrepUpTo m sys subs k).clock = none ∧ s.relativeClock then some s
          else (pollPrepUpTo m sys subs k).clock } := by
  have hat : pollConversionAt m sys subs k =
      pollConversion m sys (pollPrepUpTo m sys subs k).clock.isSome s := by
    rw [pollConversionAt, hk, clockBefore_eq]
    rfl
  simp only [pollPrepUpTo, PollPrep.push, List.range_succ, List.map_append, List.filterMap_append,
    List.map_cons, List.map_nil, List.filterMap_cons, List.filterMap_nil, hat, List.take_succ, hk,
    Option.toList_some, List.find?_append, PollPrep.mk.injEq, true_and]
  constructor
  · cases (pollConversion m sys _ s).2.2 <;> rfl
  · cases (subs.take k).find? Subscription.relativeClock <;> cases hr : s.relativeClock <;>
      simp [hr]

/-- The conversion loop from the prefix of the first `k` subscriptions: it ends with the whole
vector read off index by index, holding one reference to each object it kept, every one of them
with a host descriptor. -/
theorem pollConvert_upTo (subs : List Subscription) :
    ∀ rest k sys' p', subs.drop k = rest → k ≤ subs.length →
      (∀ i < k, ∀ fo, (pollConversionAt m sys subs i).1 = some fo →
        ∃ obj, sys.objects fo = some obj ∧ 0 ≤ obj.number) →
      pollConvert m (sys.bump ((pollPrepUpTo m sys subs k).fos.filterMap id))
        (pollPrepUpTo m sys subs k) rest = .ok (sys', p') →
      p' = pollPrepUpTo m sys subs subs.length ∧ sys' = sys.bump (p'.fos.filterMap id) ∧
        ∀ i < subs.length, ∀ fo, (pollConversionAt m sys subs i).1 = some fo →
          ∃ obj, sys.objects fo = some obj ∧ 0 ≤ obj.number
  | [], k, sys', p', hdrop, hle, hnum, h => by
    obtain rfl : k = subs.length := le_antisymm hle (List.drop_eq_nil_iff.mp hdrop)
    cases h
    exact ⟨rfl, rfl, hnum⟩
  | s :: rest, k, sys', p', hdrop, _, hnum, h => by
    have hk : subs[k]? = some s := by rw [← List.head?_drop, hdrop, List.head?_cons]
    have hlt : k < subs.length := (List.getElem?_eq_some_iff.mp hk).1
    obtain ⟨⟨sys1, p1⟩, h1, h2⟩ := Except.bind_eq_ok h
    obtain ⟨rfl, rfl, hobj⟩ := pollConvertOne_bump h1
    rw [← pollPrepUpTo_succ hk] at h2
    refine pollConvert_upTo subs rest (k + 1) sys' p' (by rw [← List.drop_drop, hdrop]; rfl) hlt
      (fun i hi fo hfo => ?_) (by simpa [pollPrepUpTo_succ hk, PollPrep.push] using h2)
    rcases Nat.lt_succ_iff_lt_or_eq.mp hi with hi | rfl
    · exact hnum i hi fo hfo
    · rw [pollConversionAt, hk, clockBefore_eq] at hfo
      exact hobj fo hfo

theorem pollConvert_spec {subs : List Subscription}
    (h : pollConvert m sys ⟨[], [], [], none⟩ subs = .ok (sys', p')) :
    p' = pollPrepUpTo m sys subs subs.length ∧ sys' = sys.bump (p'.fos.filterMap id) ∧
      ∀ i < subs.length, ∀ fo, (pollConversionAt m sys subs i).1 = some fo →
        ∃ obj, sys.objects fo = some obj ∧ 0 ≤ obj.number := by
  rw [← Sys.bump_nil sys] at h
  exact pollConvert_upTo subs subs 0 sys' p' rfl (Nat.zero_le _)
    (fun i hi => absurd hi (Nat.not_lt_zero i)) h

end Convert

section Conversion

variable {m : RightsMasks} {sys : Sys} {taken : Bool} {s : Subscription}

/-- A subscription that keeps an object is polled on the object's host descriptor and queues
nothing. -/
theorem pollConversion_kept {fo : Nat} (h : (pollConversion m sys taken s).1 = some fo) :
    (pollConversion m sys taken s).2.1.fd = ((sys.objects fo).map FdObject.number).getD (-1) ∧
      (pollConversion m sys taken s).2.2 = none := by
  cases hty : s.type with
  | fdRead | fdWrite =>
    simp only [pollConversion, hty] at h ⊢
    cases hget : fdTableGetEntry sys.table s.fd m.pollFdReadwrite 0 <;> simp only [hget] at h ⊢
    · cases h
    · cases h
      exact ⟨rfl, trivial⟩
  | clock =>
    simp only [pollConversion, hty] at h
    split at h <;> cases h
  | other =>
    simp only [pollConversion, hty] at h
    cases h

theorem pollConversion_not_kept (h : (pollConversion m sys taken s).1 = none) :
    (pollConversion m sys taken s).2.1 = skippedPollFd := by
  cases hty : s.type with
  | fdRead | fdWrite =>
    simp only [pollConversion, hty] at h ⊢
    cases hget : fdTableGetEntry sys.table s.fd m.pollFdReadwrite 0 <;> simp only [hget] at h ⊢
    cases h
  | clock =>
    simp only [pollConversion, hty]
    split <;> rfl
  | other => simp only [pollConversion, hty]

end Conversion

/-- The merge loop over the entries the conversion built is the index-wise merge: an entry has a
host descriptor exactly when its subscription kept an object. -/
theorem pollMerge_upTo {m : RightsMasks} {host : PollHost} {sys : Sys} {subs : List Subscription}
    (revents : List Revents)
    (hnum : ∀ i < subs.length, ∀ fo, (pollConversionAt m sys subs i).1 = some fo →
      ∃ obj, sys.objects fo = some obj ∧ 0 ≤ obj.number) :
    pollMerge host subs (pollPrepUpTo m sys subs subs.length).pfds revents =
      (List.range subs.length).filterMap (pollReadyAt m host sys subs revents) := by
  refine List.filterMap_congr fun i hmem => ?_
  have hi : i < subs.length := List.mem_range.mp hmem
  obtain ⟨s, hs⟩ : ∃ s, subs[i]? = some s := ⟨_, List.getElem?_eq_getElem hi⟩
  have hpfd : (pollPrepUpTo m sys subs subs.length).pfds[i]? =
      some (pollConversionAt m sys subs i).2.1 := by
    simp [pollPrepUpTo, hi]
  have hat : pollConversionAt m sys subs i = pollConversion m sys (clockBefore subs i) s := by
    rw [pollConversionAt, hs]
  have hnum' := hnum i hi
  rw [hat] at hpfd hnum'
  simp only [hs, hpfd, pollReadyAt, hat]
  rcases hc : pollConversion m sys (clockBefore subs i) s with ⟨_ | fo, pfd, ev⟩
  · have hskip : (pollConversion m sys (clockBefore subs i) s).2.1 = skippedPollFd :=
      pollConversion_not_kept (by rw [hc])
    rw [hc] at hskip
    subst hskip
    simp [skippedPollFd]
  · have hfd : (pollConversion m sys (clockBefore subs i) s).2.1.fd =
        ((sys.objects fo).map FdObject.number).getD (-1) := (pollConversion_kept (by rw [hc])).1
    obtain ⟨obj, hobj, hn⟩ := hnum' fo (by rw [hc])
    rw [hc, hobj] at hfd
    simp only [Option.map_some', Option.getD_some] at hfd
    simp only [hfd, hn, if_true]

theorem pollEvent_origin {s : Subscription} {r : Revents} {nbytes : Nat} {e : Event}
    (h : pollEvent s r nbytes = some e) : e.userdata = s.userdata ∧ e.type = s.type := by
  unfold pollEvent at h
  split_ifs at h <;> cases h <;> exact ⟨rfl, rfl⟩

theorem pollConversion_immediate {m : RightsMasks} {sys : Sys} {taken : Bool} {s : Subscription}
    {e : Event} (h : (pollConversion m sys taken s).2.2 = some e) :
    ∃ err, e = immediateEvent s err := by
  cases hty : s.type with
  | fdRead | fdWrite =>
    simp only [pollConversion, hty] at h
    cases hget : fdTableGetEntry sys.table s.fd m.pollFdReadwrite 0 <;> simp only [hget] at h
    · cases h
      exact ⟨_, rfl⟩
    · cases h
  | clock =>
    simp only [pollConversion, hty] at h
    split at h <;> cases h
    exact ⟨_, rfl⟩
  | other =>
    simp only [pollConversion, hty] at h
    cases h
    exact ⟨_, rfl⟩

/-- Each event of a subscription carries its `userdata` and type, and no subscription has both an
immediate event and a merged one. -/
theorem pollEventsAt_origin (m : RightsMasks) (host : PollHost) (sys : Sys)
    (subs : List Subscription) (revents : List Revents) (i : Nat) :
    (∀ e, pollImmediateAt m sys subs i = some e ∨ pollReadyAt m host sys subs revents i = some e →
      ∃ s, subs[i]? = some s ∧ e.userdata = s.userdata ∧ e.type = s.type) ∧
    (pollImmediateAt m sys subs i = none ∨ pollReadyAt m host sys subs revents i = none) := by
  cases hs : subs[i]? with
  | none => simp [pollImmediateAt, pollReadyAt, pollConversionAt, hs]
  | some s =>
    simp only [pollImmediateAt, pollReadyAt, pollConversionAt, hs]
    rcases hc : pollConversion m sys (clockBefore subs i) s with ⟨_ | fo, pfd, ev⟩
    · refine ⟨fun e he => ?_, .inr rfl⟩
      simp only [reduceCtorEq, or_false] at he
      obtain ⟨err, rfl⟩ := pollConversion_immediate (by rw [hc]; exact he)
      exact ⟨s, rfl, rfl, rfl⟩
    · have hev : (pollConversion m sys (clockBefore subs i) s).2.2 = none :=
        (pollConversion_kept (by rw [hc])).2
      rw [hc] at hev
      subst hev
      refine ⟨fun e he => ?_, .inl rfl⟩
      simp only [reduceCtorEq, false_or] at he
      exact ⟨s, rfl, pollEvent_origin he⟩

theorem filterMap_length_add_le {α β γ : Type} (f : α → Option β) (g : α → Option γ) :
    ∀ l : List α, (∀ a ∈ l, f a = none ∨ g a = none) →
      (l.filterMap f).length + (l.filterMap g).length ≤ l.length
  | [], _ => le_refl 0
  | a :: l, h => by
    have ih := filterMap_length_add_le f g l fun b hb => h b (List.mem_cons_of_mem a hb)
    rcases h a (List.mem_cons_self a l) with hf | hg
    · cases hga : g a <;> simp [List.filterMap_cons, hf, hga] <;> omega
    · cases hfa : f a <;> simp [List.filterMap_cons, hg, hfa] <;> omega

theorem pollPrepUpTo_immediate (m : RightsMasks) (sys : Sys) (subs : List Subscription) (k : Nat) :
    (pollPrepUpTo m sys subs k).immediate =
      (List.range k).filterMap (pollImmediateAt m sys subs) := rfl

theorem pollPrepUpTo_clock (m : RightsMasks) (sys : Sys) (subs : List Subscription) :
    (pollPrepUpTo m sys subs subs.length).clock = subs.find? Subscription.relativeClock := by
  simp only [pollPrepUpTo, List.take_length]

/-- The result of the host's answer, read off index by index: its error, or the immediate events
followed by the clock event or the merged events. -/
theorem pollResult_upTo {m : RightsMasks} {host : PollHost} {sys : Sys} {subs : List Subscription}
    (hnum : ∀ i < subs.length, ∀ fo, (pollConversionAt m sys subs i).1 = some fo →
      ∃ obj, sys.objects fo = some obj ∧ 0 ≤ obj.number) (ret : Int) (revents : List Revents) :
    pollResult host subs (pollPrepUpTo m sys subs subs.length) ret revents =
      if ret = -1 then .error host.errno
      else .ok ((List.range subs.length).filterMap (pollImmediateAt m sys subs) ++
        match subs.find? Subscription.relativeClock with
        | some c =>
          if ret = 0 ∧ (List.range subs.length).filterMap (pollImmediateAt m sys subs) = [] then
            [⟨c.userdata, none, .clock, 0, false⟩]
          else (List.range subs.length).filterMap (pollReadyAt m host sys subs revents)
        | none => (List.range subs.length).filterMap (pollReadyAt m host sys subs revents)) := by
  rw [pollResult, pollMerge_upTo revents hnum, pollPrepUpTo_clock, pollPrepUpTo_immediate]
  by_cases hret : ret = -1
  · simp only [if_pos hret]
  · simp only [if_neg hret]
    cases subs.find? Subscription.relativeClock with
    | none => rfl
    | some c =>
      dsimp only
      by_cases hc : ret = 0 ∧ (List.range subs.length).filterMap (pollImmediateAt m sys subs) = []
      · rw [if_pos hc, if_pos hc, hc.2, List.nil_append]
      · simp only [if_neg hc]

section General

variable {m : RightsMasks} {host : PollHost} {sys sys' : Sys} {subs : List Subscription}
  {r : Except Errno (List Event)}

/-- The general path that returns: the conversion read off index by index, the host's `poll` on
its entries with the timeout of its immediate events and first relative clock, the result of its
answer, and every reference taken given back. -/
theorem sysPollGeneral_spec (h : sysPollGeneral m host sys subs true true = .ok (sys', r)) :
    r = pollResult host subs (pollPrepUpTo m sys subs subs.length)
        (host.poll (pollPrepUpTo m sys subs subs.length).pfds
          (pollTimeout (pollPrepUpTo m sys subs subs.length).immediate.length
            (subs.find? Subscription.relativeClock))).1
        (host.poll (pollPrepUpTo m sys subs subs.length).pfds
          (pollTimeout (pollPrepUpTo m sys subs subs.length).immediate.length
            (subs.find? Subscription.relativeClock))).2 ∧
      releaseAll (sys.bump ((pollPrepUpTo m sys subs subs.length).fos.filterMap id))
        ((pollPrepUpTo m sys subs subs.length).fos.filterMap id) = .ok sys' ∧
      ∀ i < subs.length, ∀ fo, (pollConversionAt m sys subs i).1 = some fo →
        ∃ obj, sys.objects fo = some obj ∧ 0 ≤ obj.number := by
  simp only [sysPollGeneral, Bool.not_true, Bool.false_eq_true, if_false] at h
  obtain ⟨⟨sys1, p⟩, hconv, h2⟩ := Except.bind_eq_ok h
  obtain ⟨rfl, rfl, hnum⟩ := pollConvert_spec hconv
  rw [pollPrepUpTo_clock] at h2
  obtain ⟨sys2, hrel, h3⟩ := Except.bind_eq_ok h2
  cases h3
  exact ⟨rfl, hrel, hnum⟩

/-- The events of the general path of `sys_poll`: `poll`'s converted error, or the immediate
events in index order followed by the clock event alone (when `poll` returned `0` with nothing
immediate and a relative clock) or the merged events; at most one per subscription, each carrying
its subscription's `userdata` and type. -/
theorem sysPoll_event_vector (h : sysPollGeneral m host sys subs true true = .ok (sys', r)) :
    let imm := (List.range subs.length).filterMap (pollImmediateAt m sys subs)
    let ans := host.poll ((List.range subs.length).map fun i => (pollConversionAt m sys subs i).2.1)
      (pollTimeout imm.length (subs.find? Subscription.relativeClock))
    let ready := (List.range subs.length).filterMap (pollReadyAt m host sys subs ans.2)
    (ans.1 = -1 → r = .error host.errno) ∧
    (ans.1 ≠ -1 → ∃ evs, r = .ok evs ∧ evs.length ≤ subs.length ∧
      evs = imm ++ match subs.find? Subscription.relativeClock with
        | some c => if ans.1 = 0 ∧ imm = [] then [⟨c.userdata, none, .clock, 0, false⟩] else ready
        | none => ready) ∧
    (∀ i e, pollImmediateAt m sys subs i = some e ∨ pollReadyAt m host sys subs ans.2 i = some e →
      ∃ s, subs[i]? = some s ∧ e.userdata = s.userdata ∧ e.type = s.type) ∧
    (∀ i, pollImmediateAt m sys subs i = none ∨ pollReadyAt m host sys subs ans.2 i = none) := by
  intro imm ans ready
  obtain ⟨hr, -, hnum⟩ := sysPollGeneral_spec h
  rw [pollResult_upTo hnum, pollPrepUpTo_immediate] at hr
  change r = if ans.1 = -1 then _ else _ at hr
  refine ⟨fun hret => by rw [hr, if_pos hret], fun hret => ?_,
    fun i e he => (pollEventsAt_origin m host sys subs ans.2 i).1 e he,
    fun i => (pollEventsAt_origin m host sys subs ans.2 i).2⟩
  rw [if_neg hret] at hr
  refine ⟨_, hr, ?_, rfl⟩
  have hdisj := filterMap_length_add_le (pollImmediateAt m sys subs) (pollReadyAt m host sys subs ans.2)
    (List.range subs.length) fun i _ => (pollEventsAt_origin m host sys subs ans.2 i).2
  rw [List.length_range] at hdisj
  split
  · next c hc =>
    split_ifs with hclock
    · have : 0 < subs.length := List.length_pos_of_mem (List.mem_of_find?_eq_some hc)
      simp [hclock.2]
      omega
    · simpa using hdisj
  · simpa using hdisj

theorem sysPoll_event_vector_pipe :
    ∃ sys' evs, sysPollGeneral default ⟨fun _ _ => (1, [⟨false, false, false, true, false⟩]), .eio,
        fun _ => some 3⟩ oneFile [⟨7, .fdRead, 0, 0, false⟩, ⟨8, .clock, 0, 5000000, false⟩]
        true true = .ok (sys', .ok evs) ∧ evs.length ≤ 2 := by
  have h : sysPollGeneral default ⟨fun _ _ => (1, [⟨false, false, false, true, false⟩]), .eio,
      fun _ => some 3⟩ oneFile [⟨7, .fdRead, 0, 0, false⟩, ⟨8, .clock, 0, 5000000, false⟩]
      true true = .ok (_, _) := rfl
  obtain ⟨-, hok, -, -⟩ := sysPoll_event_vector h
  obtain ⟨evs, hevs, hlen, -⟩ := hok (by decide)
  exact ⟨_, evs, h.trans (congrArg _ (congrArg _ hevs)), hlen⟩

/-- A host `poll` that returns `0` while it reports the looked-up descriptor readable: the call
reports the clock event alone, and no event for the readable descriptor. -/
theorem sysPoll_clock_hides_ready :
    ∃ sys', sysPollGeneral default ⟨fun _ _ => (0, [⟨false, false, false, true, false⟩]), .eio,
        fun _ => some 3⟩ oneFile [⟨7, .fdRead, 0, 0, false⟩, ⟨8, .clock, 0, 5000000, false⟩]
        true true = .ok (sys', .ok [⟨8, none, .clock, 0, false⟩]) :=
  ⟨_, rfl⟩

/-- The timeout of a relative clock: its milliseconds while they fit an `int`, and `-1` from
`2^31 * 10^6` nanoseconds on. -/
theorem pollTimeout_clock (c : Subscription) :
    pollTimeout 0 (some c) =
      if c.timeout < 2 ^ 31 * 1000000 then ((c.timeout / 1000000 : Nat) : Int) else -1 := by
  simp only [pollTimeout, ne_eq, not_true_eq_false, if_false, intMax]
  by_cases ht : c.timeout < 2 ^ 31 * 1000000
  · rw [if_neg (by omega), if_pos ht]
  · rw [if_pos (by omega), if_neg ht]

/-- A relative clock of `2^31 * 10^6` nanoseconds or more, with no immediate event queued: the
call is the one in which the host's `poll` always waits without bound. -/
theorem sysPollGeneral_unbounded_wait {c : Subscription}
    (himm : (List.range subs.length).filterMap (pollImmediateAt m sys subs) = [])
    (hc : subs.find? Subscription.relativeClock = some c) (ht : 2 ^ 31 * 1000000 ≤ c.timeout) :
    sysPollGeneral m host sys subs true true =
      sysPollGeneral m ⟨fun pfds _ => host.poll pfds (-1), host.errno, host.fionread⟩ sys subs
        true true := by
  simp only [sysPollGeneral, Bool.not_true, Bool.false_eq_true, if_false]
  cases hconv : pollConvert m sys ⟨[], [], [], none⟩ subs with
  | error f => rfl
  | ok v =>
    obtain ⟨sys1, p⟩ := v
    obtain ⟨rfl, rfl, -⟩ := pollConvert_spec hconv
    have hto : pollTimeout (pollPrepUpTo m sys subs subs.length).immediate.length
        (pollPrepUpTo m sys subs subs.length).clock = -1 := by
      rw [pollPrepUpTo_immediate, himm, pollPrepUpTo_clock, hc, List.length_nil, pollTimeout_clock,
        if_neg (by omega)]
    simp only [bind, Except.bind, hto]
    rfl

end General

theorem sysPollGeneral_unbounded_wait_pipe :
    (List.range 2).filterMap (pollImmediateAt default oneFile
        [⟨7, .fdRead, 0, 0, false⟩, ⟨8, .clock, 0, 2 ^ 31 * 1000000, false⟩]) = [] ∧
      sysPollGeneral default ⟨fun _ _ => (0, []), .eio, fun _ => none⟩ oneFile
          [⟨7, .fdRead, 0, 0, false⟩, ⟨8, .clock, 0, 2 ^ 31 * 1000000, false⟩] true true =
        sysPollGeneral default ⟨fun pfds _ => (fun _ _ => ((0 : Int), ([] : List Revents))) pfds (-1),
          .eio, fun _ => none⟩ oneFile
          [⟨7, .fdRead, 0, 0, false⟩, ⟨8, .clock, 0, 2 ^ 31 * 1000000, false⟩] true true :=
  ⟨by decide, sysPollGeneral_unbounded_wait (by decide) rfl le_rfl⟩

end CloudabiEmulator
