import Mathlib.Data.Multiset.AddSub

/-! A network that loses, duplicates and reorders the messages it carries, with the account of all
it has done to them: every message that was posted or that a duplication added has been delivered
or lost, or is in flight. -/

structure Network (Message : Type*) where
  inFlight : Multiset Message := 0
  posted : Multiset Message := 0
  duplicated : Multiset Message := 0
  delivered : Multiset Message := 0
  lost : Multiset Message := 0
  conserved : posted + duplicated = delivered + lost + inFlight := by rfl
  copies : ∀ m ∈ duplicated, m ∈ posted := by simp

namespace Network

variable {Message : Type*}

/-- The network carries nothing that has not been posted. -/
theorem posted_of_inFlight (net : Network Message) {m : Message} (h : m ∈ net.inFlight) :
    m ∈ net.posted := by
  have hsum : m ∈ net.posted + net.duplicated := by
    rw [net.conserved]
    exact Multiset.mem_add.mpr (Or.inr h)
  rcases Multiset.mem_add.mp hsum with hposted | hduplicated
  · exact hposted
  · exact net.copies m hduplicated

def post (net : Network Message) (m : Message) : Network Message :=
  { net with
    inFlight := m ::ₘ net.inFlight
    posted := m ::ₘ net.posted
    conserved := by rw [Multiset.cons_add, Multiset.add_cons, net.conserved]
    copies := fun a ha => Multiset.mem_cons_of_mem (net.copies a ha) }

/-- One message after the other is posted. -/
def postEach (net : Network Message) (ms : List Message) : Network Message := ms.foldl post net

variable [DecidableEq Message]

def deliver (net : Network Message) (m : Message) : Option (Network Message) :=
  if h : m ∈ net.inFlight then
    some { net with
      inFlight := net.inFlight.erase m
      delivered := m ::ₘ net.delivered
      conserved := by
        rw [Multiset.cons_add, Multiset.cons_add, ← Multiset.add_cons, Multiset.cons_erase h,
          net.conserved] }
  else none

def lose (net : Network Message) (m : Message) : Option (Network Message) :=
  if h : m ∈ net.inFlight then
    some { net with
      inFlight := net.inFlight.erase m
      lost := m ::ₘ net.lost
      conserved := by
        rw [Multiset.add_cons, Multiset.cons_add, ← Multiset.add_cons, Multiset.cons_erase h,
          net.conserved] }
  else none

def duplicate (net : Network Message) (m : Message) : Option (Network Message) :=
  if h : m ∈ net.inFlight then
    some { net with
      inFlight := m ::ₘ net.inFlight
      duplicated := m ::ₘ net.duplicated
      conserved := by rw [Multiset.add_cons, Multiset.add_cons, net.conserved]
      copies := Multiset.forall_mem_cons.mpr ⟨net.posted_of_inFlight h, net.copies⟩ }
  else none

variable {net net' : Network Message} {m : Message}

theorem deliver_some (h : net.deliver m = some net') :
    m ∈ net.inFlight ∧ net'.inFlight = net.inFlight.erase m ∧ net'.posted = net.posted ∧
      net'.delivered = m ::ₘ net.delivered := by
  unfold deliver at h
  split at h
  · cases h
    exact ⟨‹_›, rfl, rfl, rfl⟩
  · cases h

theorem lose_some (h : net.lose m = some net') :
    m ∈ net.inFlight ∧ net'.inFlight = net.inFlight.erase m ∧ net'.posted = net.posted ∧
      net'.delivered = net.delivered := by
  unfold lose at h
  split at h
  · cases h
    exact ⟨‹_›, rfl, rfl, rfl⟩
  · cases h

theorem duplicate_some (h : net.duplicate m = some net') :
    m ∈ net.inFlight ∧ net'.inFlight = m ::ₘ net.inFlight ∧ net'.posted = net.posted ∧
      net'.delivered = net.delivered := by
  unfold duplicate at h
  split at h
  · cases h
    exact ⟨‹_›, rfl, rfl, rfl⟩
  · cases h

omit [DecidableEq Message] in
/-- Posting adds to what is posted and in flight, and to nothing else. -/
theorem postEach_eq (net : Network Message) (ms : List Message) :
    (net.postEach ms).posted = net.posted + ms ∧ (net.postEach ms).inFlight = net.inFlight + ms ∧
      (net.postEach ms).delivered = net.delivered := by
  induction ms generalizing net with
  | nil => exact ⟨(Multiset.add_zero _).symm, (Multiset.add_zero _).symm, rfl⟩
  | cons m ms ih =>
      obtain ⟨hposted, hinFlight, hdelivered⟩ := ih (net.post m)
      have hcons (s : Multiset Message) : m ::ₘ s + ↑ms = s + ↑(m :: ms) := by
        rw [← Multiset.cons_coe, Multiset.cons_add, Multiset.add_cons]
      exact ⟨hposted.trans (hcons _), hinFlight.trans (hcons _), hdelivered⟩

omit [DecidableEq Message] in
/-- The account, of the messages of one kind. -/
theorem conserved_countP (net : Network Message) (p : Message → Prop) [DecidablePred p] :
    net.posted.countP p + net.duplicated.countP p =
      net.delivered.countP p + net.lost.countP p + net.inFlight.countP p := by
  rw [← Multiset.countP_add, net.conserved, Multiset.countP_add, Multiset.countP_add]

omit [DecidableEq Message] in
/-- What has been delivered was posted. -/
theorem posted_of_delivered (net : Network Message) {m : Message} (h : m ∈ net.delivered) :
    m ∈ net.posted := by
  have hsum : m ∈ net.posted + net.duplicated := by
    rw [net.conserved]
    exact Multiset.mem_add.mpr (Or.inl (Multiset.mem_add.mpr (Or.inl h)))
  rcases Multiset.mem_add.mp hsum with hposted | hduplicated
  · exact hposted
  · exact net.copies m hduplicated

end Network
