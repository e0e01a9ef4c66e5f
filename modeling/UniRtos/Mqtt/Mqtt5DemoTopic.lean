import UniRtos.Mqtt.Mqtt5DemoCore

/-!
The topic that ends a subscription. A new message is compared with its first
bytes only, and a cached one not at all.
-/

namespace UniRtos.Mqtt5Demo

open MqttDemo (RecvPub topic1 topicMatches)

def Event.isUnsubscribe : Event → Bool
  | .unsubscribe _ _ _ _ => true
  | _ => false

def Event.insideTopic : Event → Bool
  | .memcmp count size => count ≤ size
  | _ => true

/-- A message asks to unsubscribe exactly if it has the first topic, and is compared inside it. -/
def Dispatches (pub : RecvPub) (events : List Event) : Prop :=
  (events.any Event.isUnsubscribe = true ↔ pub.topic = topic1) ∧
    events.all Event.insideTopic = true

theorem topicMatches_iff {pub : RecvPub} (inside : topic1.length ≤ pub.topic.length) :
    topicMatches pub = true ↔ topic1 <+: pub.topic := by
  rw [topicMatches, decide_eq_true_eq, List.take_append_of_le_length inside,
    List.prefix_iff_eq_take, eq_comm]

theorem recvNewMessage_unsubscribes (build : Build) (demo : Demo) (number clientId storeId : Nat)
    (pub : RecvPub) :
    (recvNewMessage build demo number clientId storeId (some pub)).2.any Event.isUnsubscribe =
      topicMatches pub := by
  cases same : topicMatches pub <;>
    simp [recvNewMessage, demoUnsubscribe, same, Event.isUnsubscribe]

theorem recvNewMessage_inside (build : Build) (demo : Demo) (number clientId storeId : Nat)
    (pub : RecvPub) :
    (recvNewMessage build demo number clientId storeId (some pub)).2.all Event.insideTopic =
      decide (topic1.length ≤ pub.topic.length) := by
  cases same : topicMatches pub <;>
    simp [recvNewMessage, demoUnsubscribe, same, Event.insideTopic]

theorem recvCacheMessage_silent (demo : Demo) (number clientId : Nat) (data : Option Nat)
    (pub : RecvPub) :
    (recvCacheMessage demo number clientId data (some pub)).2.any Event.isUnsubscribe = false ∧
      (recvCacheMessage demo number clientId data (some pub)).2.all Event.insideTopic = true := by
  cases data <;> simp [recvCacheMessage, Event.isUnsubscribe, Event.insideTopic]

theorem mqtt5Demo_dispatch_iff (build : Build) (demo : Demo)
    (number clientId storeId cached : Nat) (data : Option Nat) (pub : RecvPub) :
    Dispatches pub (recvNewMessage build demo number clientId storeId (some pub)).2 ∧
        Dispatches pub (recvCacheMessage demo cached clientId data (some pub)).2 ↔
      topic1.length ≤ pub.topic.length ∧ ¬topic1 <+: pub.topic := by
  obtain ⟨silent, outside⟩ := recvCacheMessage_silent demo cached clientId data pub
  simp only [Dispatches, recvNewMessage_unsubscribes, recvNewMessage_inside, silent, outside,
    decide_eq_true_eq, Bool.false_eq_true, false_iff, and_true]
  constructor
  · rintro ⟨⟨fresh, inside⟩, other⟩
    refine ⟨inside, fun begins => other (fresh.mp ?_)⟩
    exact (topicMatches_iff inside).mpr begins
  · rintro ⟨inside, other⟩
    have differs : pub.topic ≠ topic1 := by
      rintro same
      exact other (same ▸ List.prefix_refl topic1)
    refine ⟨⟨?_, inside⟩, differs⟩
    rw [topicMatches_iff inside]
    exact ⟨fun begins => absurd begins other, fun same => absurd same differs⟩

def pubOf (topic : String) : RecvPub :=
  { msgId := 1, topic := asciiBytes topic, behind := [], payload := [] }

/-- The first topic comes cached; a longer topic begins with it; a shorter one is compared. -/
theorem mqtt5Demo_dispatch_broken :
    ¬Dispatches (pubOf "mqtt_test1")
        (recvCacheMessage (Demo.start 0) 0 0 none (some (pubOf "mqtt_test1"))).2 ∧
      ¬Dispatches (pubOf "mqtt_test10")
        (recvNewMessage ⟨true, .uint16⟩ (Demo.start 0) 0 0 0 (some (pubOf "mqtt_test10"))).2 ∧
      ¬Dispatches (pubOf "mqtt")
        (recvNewMessage ⟨true, .uint16⟩ (Demo.start 0) 0 0 0 (some (pubOf "mqtt"))).2 := by
  unfold Dispatches
  decide +kernel

end UniRtos.Mqtt5Demo
