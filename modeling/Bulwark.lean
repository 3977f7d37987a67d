import Bulwark.Schedule
import Bulwark.Engine.Overtaken
import Bulwark.Proofs.Tickets
import Bulwark.Proofs.Isolation
import Bulwark.Proofs.Padded
import Bulwark.Proofs.Deciders
import Bulwark.Proofs.Mirror
import Bulwark.Proofs.Recovery
import Bulwark.Proofs.Silence
import Bulwark.Proofs.Shedding
import Bulwark.Proofs.Standing
import Bulwark.Proofs.Frozen
import Bulwark.Proofs.Recounts
import Bulwark.Proofs.Threshold
import Bulwark.Proofs.Lockstep
import Bulwark.Proofs.Refusal
import Bulwark.Proofs.Answered
import Bulwark.Proofs.Tandem
import Bulwark.Proofs.Observers
import Bulwark.Proofs.Panicking
import Bulwark.Proofs.Pledges
import Bulwark.Proofs.Traceless
import Bulwark.Draft
import Bulwark.Proofs.Spacing
import Bulwark.Proofs.Precedence
import Bulwark.Proofs.Founding
import Bulwark.Proofs.Readings
import Bulwark.Proofs.Conservation
import Bulwark.Proofs.Causes
import Bulwark.Proofs.Wording
