import Sponge.TCPReceiver.Model
import Sponge.TCPSender.Model

/-!
# The summary of the state of a connection

A connection has no state variable with the states of the TCP specification.
`TCPState` summarizes the sender and the receiver and adds two bits of the
connection, and each official state is the name of one such summary.
-/

namespace Sponge

/-- What a receiver looks like from outside. -/
inductive TCPReceiverStateSummary where
  | error
  | listen
  | synRecv
  | finRecv
deriving DecidableEq

/-- What a sender looks like from outside. -/
inductive TCPSenderStateSummary where
  | error
  | closed
  | synSent
  | synAcked
  | finSent
  | finAcked
deriving DecidableEq

/-- The summary of a connection. -/
structure TCPState where
  sender : TCPSenderStateSummary
  receiver : TCPReceiverStateSummary
  active : Bool := true
  lingerAfterStreamsFinish : Bool := true
deriving DecidableEq

namespace TCPState

/-- The official names of the states. -/
inductive State where
  | listen
  | synRcvd
  | synSent
  | established
  | closeWait
  | lastAck
  | finWait1
  | finWait2
  | closing
  | timeWait
  | closed
  | reset
deriving DecidableEq

/-- The summary that an official name stands for. -/
def ofState : State → TCPState
  | .listen => { receiver := .listen, sender := .closed }
  | .synRcvd => { receiver := .synRecv, sender := .synSent }
  | .synSent => { receiver := .listen, sender := .synSent }
  | .established => { receiver := .synRecv, sender := .synAcked }
  | .closeWait =>
      { receiver := .finRecv
        sender := .synAcked
        lingerAfterStreamsFinish := false }
  | .lastAck =>
      { receiver := .finRecv
        sender := .finSent
        lingerAfterStreamsFinish := false }
  | .closing => { receiver := .finRecv, sender := .finSent }
  | .finWait1 => { receiver := .synRecv, sender := .finSent }
  | .finWait2 => { receiver := .synRecv, sender := .finAcked }
  | .timeWait => { receiver := .finRecv, sender := .finAcked }
  | .reset =>
      { receiver := .error
        sender := .error
        lingerAfterStreamsFinish := false
        active := false }
  | .closed =>
      { receiver := .finRecv
        sender := .finAcked
        lingerAfterStreamsFinish := false
        active := false }

/-- The text of the summary of a receiver. -/
def receiverText : TCPReceiverStateSummary → String
  | .error => "error (connection was reset)"
  | .listen => "waiting for SYN: ackno is empty"
  | .synRecv =>
      "SYN received (ackno exists), and input to stream hasn't ended"
  | .finRecv => "input to stream has ended"

/-- The text of the summary of a sender. -/
def senderText : TCPSenderStateSummary → String
  | .error => "error (connection was reset)"
  | .closed => "waiting for stream to begin (no SYN sent)"
  | .synSent => "stream started but nothing acknowledged"
  | .synAcked => "stream ongoing"
  | .finSent => "stream finished (FIN sent) but not fully acknowledged"
  | .finAcked => "stream finished and fully acknowledged"

/-- The text of a state. -/
def name (s : TCPState) : String :=
  "sender=`" ++ senderText s.sender ++ "`, receiver=`" ++
    receiverText s.receiver ++ "`, active=" ++
    (if s.active then "1" else "0") ++ ", linger_after_streams_finish=" ++
    (if s.lingerAfterStreamsFinish then "1" else "0")

/-- `state_summary` of a receiver. -/
def receiverSummary (receiver : TCPReceiver) : TCPReceiverStateSummary :=
  if receiver.streamOut.error then .error
  else if receiver.ackno.isNone then .listen
  else if receiver.streamOut.inputEnded then .finRecv
  else .synRecv

/-- `state_summary` of a sender. -/
def senderSummary (sender : TCPSender) : TCPSenderStateSummary :=
  if sender.streamIn.error then .error
  else if sender.nextSeqnoAbsolute = 0 then .closed
  else if sender.nextSeqnoAbsolute = sender.bytesInFlight then .synSent
  else if !sender.streamIn.eof then .synAcked
  else if sender.nextSeqnoAbsolute < sender.streamIn.bytesWritten + 2 then
    .synAcked
  else if sender.bytesInFlight ≠ 0 then .finSent
  else .finAcked

/-- The summary of a sender, a receiver and the two bits of a connection. -/
def summarize (sender : TCPSender) (receiver : TCPReceiver)
    (active linger : Bool) : TCPState where
  sender := senderSummary sender
  receiver := receiverSummary receiver
  active := active
  lingerAfterStreamsFinish := if active then linger else false

end TCPState

end Sponge
