import UniRtos.Lib.RingBuffer
import UniRtos.Lib.Semaphore

/-!
Executable model of the producer and the consumer task of the semaphore demo
(`semaphore_producer_consumer.c`): a ring of bytes that is guarded by one
semaphore for its empty and one for its full cells.
-/

namespace UniRtos.ProducerConsumer

open RingBuffer

abbrev bufferSize : Nat := 100

inductive Stage
  | wait
  | access
  | release
  deriving DecidableEq, Repr

structure Demo where
  buffer : Vector UInt8 bufferSize
  emptySem : Semaphore
  fullSem : Semaphore
  producerIndex : Fin bufferSize
  consumerIndex : Fin bufferSize
  itemCount : Int
  data : UInt8
  producer : Stage
  consumer : Stage
  deriving DecidableEq, Repr

inductive Turn
  | producer
  | consumer
  | timeout
  deriving DecidableEq, Repr

def letterA : UInt8 := 65
def letterZ : UInt8 := 90

def Demo.store (demo : Demo) : Demo :=
  { demo with
    buffer := demo.buffer.set demo.producerIndex demo.data
    producerIndex := advance demo.producerIndex
    itemCount := demo.itemCount + 1
    producer := .release }

def Demo.load (demo : Demo) : Demo :=
  { demo with
    consumerIndex := advance demo.consumerIndex
    itemCount := demo.itemCount - 1
    consumer := .release }

/-- A wait on a semaphore without a unit goes on, and a release that the semaphore refuses changes
nothing but is only logged. -/
def producerTask (demo : Demo) : Demo :=
  match demo.producer with
  | .wait =>
      match demo.emptySem.wait with
      | some emptySem => { demo with emptySem := emptySem, producer := .access }
      | none => demo
  | .access => demo.store
  | .release =>
      { demo with
        fullSem := demo.fullSem.release.getD demo.fullSem
        data := if demo.data = letterZ then letterA else demo.data + 1
        producer := .wait }

def consumerTask (demo : Demo) : Demo :=
  match demo.consumer with
  | .wait =>
      match demo.fullSem.wait with
      | some fullSem => { demo with fullSem := fullSem, consumer := .access }
      | none => demo
  | .access => demo.load
  | .release => { demo with emptySem := demo.emptySem.release.getD demo.emptySem, consumer := .wait }

def next (demo : Demo) : Turn → Demo
  | .producer => producerTask demo
  | .consumer => consumerTask demo
  | .timeout => demo

def accesses (demo : Demo) : Turn → List (Access UInt8 bufferSize)
  | .producer =>
      if demo.producer = .access then [.store demo.producerIndex demo.data] else []
  | .consumer =>
      if demo.consumer = .access then
        [.load demo.consumerIndex (demo.buffer.get demo.consumerIndex)]
      else []
  | .timeout => []

def refused (demo : Demo) : Turn → Bool
  | .producer => demo.producer = .release ∧ demo.fullSem.release = none
  | .consumer => demo.consumer = .release ∧ demo.emptySem.release = none
  | .timeout => false

def producerConsumerInit : Demo where
  buffer := Vector.replicate bufferSize 0
  emptySem := ⟨bufferSize, bufferSize, Nat.le_refl _⟩
  fullSem := ⟨0, bufferSize, Nat.zero_le _⟩
  producerIndex := 0
  consumerIndex := 0
  itemCount := 0
  data := letterA
  producer := .wait
  consumer := .wait

def demoAfter (turns : List Turn) : Demo := InputRun.run next producerConsumerInit turns

def traceOf (turns : List Turn) : List (Access UInt8 bufferSize) :=
  InputRun.outputs next accesses producerConsumerInit turns

end UniRtos.ProducerConsumer
